import Komanda.Lib.JsonValue

/-!
# The text of a value

`Value.text` is what `JSON.stringify` makes of a value without dates: fields that are undefined are left out, and a
number is written as `Number::toString` has it, a plain decimal where the point is near, else with an exponent. Texts
are equal only for values that agree, fields in order (`text_eq_iff`).
-/

namespace Json

/-! ## Numbers -/

/-- The exponent with its sign. -/
def exponentText (e : Int) : List Char := (if e < 0 then '-' else '+') :: Nat.toDigits 10 e.natAbs

def magnitude (digits : List Char) (point : Int) : List Char :=
  let k := digits.length
  if k ≤ point ∧ point ≤ 21 then digits ++ List.replicate (point - k).toNat '0'
  else if 0 < point ∧ point ≤ 21 then digits.take point.toNat ++ '.' :: digits.drop point.toNat
  else if -6 < point ∧ point ≤ 0 then '0' :: '.' :: (List.replicate (-point).toNat '0' ++ digits)
  else if k = 1 then digits ++ 'e' :: exponentText (point - 1)
  else digits.take 1 ++ '.' :: (digits.drop 1 ++ 'e' :: exponentText (point - 1))

def Decimal.text (d : Decimal) : List Char :=
  if d.negative then '-' :: magnitude d.digits d.point else magnitude d.digits d.point

def Number.text : Number → List Char
  | .zero => ['0']
  | .decimal d => d.text

def isNumberChar (c : Char) : Bool := c.isDigit || c = '-' || c = '+' || c = '.' || c = 'e'

/-! ## Reading a magnitude -/

def readExponent : List Char → Int
  | '-' :: l => -(Nat.ofDigitChars 10 l 0 : Int)
  | _ :: l => Nat.ofDigitChars 10 l 0
  | [] => 0

/-- The digits and the point that a magnitude is written from. -/
def readMagnitude (l : List Char) : List Char × Int :=
  let whole := l.takeWhile Char.isDigit
  match l.dropWhile Char.isDigit with
  | [] => ((whole.reverse.dropWhile (· = '0')).reverse, whole.length)
  | c :: rest =>
    if c = 'e' then (whole, readExponent rest + 1)
    else
      let fraction := rest.takeWhile Char.isDigit
      match rest.dropWhile Char.isDigit with
      | _ :: e => (whole ++ fraction, readExponent e + 1)
      | [] =>
        if whole = ['0'] then (fraction.dropWhile (· = '0'), -(fraction.takeWhile (· = '0')).length)
        else (whole ++ fraction, whole.length)

section Parts

/-- A run of characters with a property ends where the rest begins. -/
theorem span_append {p : Char → Bool} (l r : List Char) (hl : ∀ c ∈ l, p c = true) (hr : ∀ c ∈ r.head?, p c = false) :
    (l ++ r).takeWhile p = l ∧ (l ++ r).dropWhile p = r := by
  rw [List.takeWhile_append_of_pos hl, List.dropWhile_append_of_pos hl]
  cases r with
  | nil => exact ⟨List.append_nil _, rfl⟩
  | cons c r =>
    have hc := Bool.eq_false_iff.1 (hr c rfl)
    rw [List.takeWhile_cons_of_neg hc, List.dropWhile_cons_of_neg hc]
    exact ⟨List.append_nil _, rfl⟩

theorem zeros_append {l : List Char} (a : Nat) (hl : l.head? ≠ some '0') :
    (List.replicate a '0' ++ l).takeWhile (· = '0') = List.replicate a '0' ∧
      (List.replicate a '0' ++ l).dropWhile (· = '0') = l := by
  refine span_append _ _ (fun c hc => decide_eq_true (List.eq_of_mem_replicate hc)) fun c hc => ?_
  exact decide_eq_false fun hzero => hl (hzero ▸ hc)

theorem readExponent_text (e : Int) : readExponent (exponentText e) = e := by
  unfold exponentText
  split
  · show -(Nat.ofDigitChars 10 (Nat.toDigits 10 e.natAbs) 0 : Int) = e
    rw [Nat.ofDigitChars_ten_toDigits]
    omega
  · show (Nat.ofDigitChars 10 (Nat.toDigits 10 e.natAbs) 0 : Int) = e
    rw [Nat.ofDigitChars_ten_toDigits]
    omega

end Parts

theorem readMagnitude_magnitude {digits : List Char} (point : Int) (hd : ∀ c ∈ digits, c.isDigit = true)
    (hne : digits ≠ []) (hfirst : digits.head? ≠ some '0') (hlast : digits.getLast? ≠ some '0') :
    readMagnitude (magnitude digits point) = (digits, point) := by
  have hlength := List.length_pos_of_ne_nil hne
  have hzeros (a : Nat) : ∀ c ∈ List.replicate a '0', c.isDigit = true := fun c hc => by
    rw [List.eq_of_mem_replicate hc]
    rfl
  have htake (n : Nat) : ∀ c ∈ digits.take n, c.isDigit = true := fun c hc => hd c (List.mem_of_mem_take hc)
  have hdrop (n : Nat) : ∀ c ∈ digits.drop n, c.isDigit = true := fun c hc => hd c (List.mem_of_mem_drop hc)
  have hhead {n : Nat} (hn : 0 < n) : digits.take n ≠ ['0'] := by
    intro h
    have hh := congrArg List.head? h
    rw [List.head?_take, if_neg (Nat.ne_of_gt hn)] at hh
    exact hfirst hh
  unfold magnitude
  dsimp only
  split
  · -- a whole number
    next hwhole =>
    obtain ⟨ht, hr⟩ := span_append (digits ++ List.replicate (point - digits.length).toNat '0') []
      (List.forall_mem_append.2 ⟨hd, hzeros _⟩) (fun c hc => by cases hc)
    rw [List.append_nil] at ht hr
    obtain ⟨-, hz⟩ := zeros_append (l := digits.reverse) (point - digits.length).toNat
      (by rwa [List.head?_reverse])
    rw [readMagnitude, ht, hr]
    dsimp only
    rw [List.reverse_append, List.reverse_replicate, hz, List.reverse_reverse, List.length_append,
      List.length_replicate]
    refine Prod.ext rfl ?_
    dsimp only
    omega
  · split
    · -- the point among the digits
      next hwhole hpoint =>
      obtain ⟨ht, hr⟩ := span_append (digits.take point.toNat) ('.' :: digits.drop point.toNat) (htake point.toNat)
        (fun c hc => by cases hc; rfl)
      obtain ⟨ht', hr'⟩ := span_append (digits.drop point.toNat) [] (hdrop point.toNat) (fun c hc => by cases hc)
      rw [List.append_nil] at ht' hr'
      rw [readMagnitude, ht, hr]
      dsimp only
      rw [if_neg (by decide), ht', hr']
      dsimp only
      rw [if_neg (hhead (by omega)), List.take_append_drop, List.length_take]
      refine Prod.ext rfl ?_
      dsimp only
      omega
    · split
      · -- zeros before the digits
        next hsmall =>
        obtain ⟨ht', hr'⟩ := span_append (List.replicate (-point).toNat '0' ++ digits) []
          (List.forall_mem_append.2 ⟨hzeros _, hd⟩) (fun c hc => by cases hc)
        rw [List.append_nil] at ht' hr'
        obtain ⟨hz, hz'⟩ := zeros_append (-point).toNat hfirst
        have hread : readMagnitude ('0' :: '.' :: (List.replicate (-point).toNat '0' ++ digits)) =
            (digits, -((List.replicate (-point).toNat '0').length : Int)) := by
          obtain ⟨ht, hr⟩ := span_append ['0']
            ('.' :: (List.replicate (-point).toNat '0' ++ digits)) (hzeros 1) (fun c hc => by cases hc; rfl)
          rw [List.singleton_append] at ht hr
          rw [readMagnitude, ht, hr]
          dsimp only
          rw [if_neg (by decide), ht', hr', hz, hz']
          rfl
        rw [hread, List.length_replicate]
        refine Prod.ext rfl ?_
        dsimp only
        omega
      · split
        · -- one digit and an exponent
          obtain ⟨ht, hr⟩ := span_append digits ('e' :: exponentText (point - 1)) hd (fun c hc => by cases hc; rfl)
          rw [readMagnitude, ht, hr]
          dsimp only
          rw [if_pos rfl, readExponent_text]
          exact Prod.ext rfl (Int.sub_add_cancel _ _)
        · -- more digits and an exponent
          obtain ⟨ht, hr⟩ := span_append (digits.take 1) ('.' :: (digits.drop 1 ++ 'e' :: exponentText (point - 1)))
            (htake 1)
            (fun c hc => by cases hc; rfl)
          obtain ⟨ht', hr'⟩ := span_append (digits.drop 1) ('e' :: exponentText (point - 1)) (hdrop 1)
            (fun c hc => by cases hc; rfl)
          rw [readMagnitude, ht, hr]
          dsimp only
          rw [if_neg (by decide), ht', hr']
          dsimp only
          rw [readExponent_text, List.take_append_drop]
          exact Prod.ext rfl (Int.sub_add_cancel _ _)

/-! ## Texts -/

section Texts
variable {d d' : Decimal} {n n' : Number}

theorem Decimal.head_magnitude (d : Decimal) : ∃ c l, magnitude d.digits d.point = c :: l ∧ c.isDigit = true := by
  obtain ⟨c, l, hdigits⟩ := List.exists_cons_of_ne_nil d.nonempty
  have hc : c.isDigit = true := d.digit c (hdigits ▸ List.mem_cons_self)
  rw [hdigits]
  unfold magnitude
  dsimp only
  split
  · exact ⟨c, _, rfl, hc⟩
  · split
    · next hpoint =>
      obtain ⟨n, hn⟩ := Nat.exists_eq_succ_of_ne_zero (show d.point.toNat ≠ 0 by omega)
      rw [hn]
      exact ⟨c, _, rfl, hc⟩
    · split
      · exact ⟨'0', _, rfl, rfl⟩
      · split
        · exact ⟨c, _, rfl, hc⟩
        · exact ⟨c, _, rfl, hc⟩

theorem Decimal.text_inj (h : d.text = d'.text) : d = d' := by
  have hmagnitude (h : magnitude d.digits d.point = magnitude d'.digits d'.point) :
      d.digits = d'.digits ∧ d.point = d'.point := by
    have hread := congrArg readMagnitude h
    rw [readMagnitude_magnitude d.point d.digit d.nonempty d.first d.last,
      readMagnitude_magnitude d'.point d'.digit d'.nonempty d'.first d'.last] at hread
    exact Prod.mk.inj hread
  obtain ⟨c, l, hhead, hc⟩ := d.head_magnitude
  obtain ⟨c', l', hhead', hc'⟩ := d'.head_magnitude
  have hsign : d.negative = d'.negative ∧ magnitude d.digits d.point = magnitude d'.digits d'.point := by
    rw [text, text] at h
    cases hn : d.negative with
    | true =>
      cases hn' : d'.negative with
      | true =>
        rw [hn, hn'] at h
        exact ⟨rfl, (List.cons.inj h).2⟩
      | false =>
        rw [hn, hn', if_pos rfl, if_neg Bool.false_ne_true, hhead'] at h
        obtain ⟨rfl, -⟩ := List.cons.inj h
        exact absurd hc' (by decide)
    | false =>
      cases hn' : d'.negative with
      | true =>
        rw [hn, hn', if_pos rfl, if_neg Bool.false_ne_true, hhead] at h
        obtain ⟨rfl, -⟩ := List.cons.inj h
        exact absurd hc (by decide)
      | false =>
        rw [hn, hn', if_neg Bool.false_ne_true] at h
        exact ⟨rfl, h⟩
  obtain ⟨hdigits, hpoint⟩ := hmagnitude hsign.2
  cases d
  cases d'
  obtain ⟨rfl, -⟩ := hsign
  obtain rfl := hdigits
  obtain rfl := hpoint
  rfl

theorem Number.text_inj (h : n.text = n'.text) : n = n' := by
  have hzero (d : Decimal) : d.text ≠ ['0'] := by
    intro h
    rw [Decimal.text] at h
    split at h
    · exact absurd (List.cons.inj h).1 (by decide)
    · have hread := readMagnitude_magnitude d.point d.digit d.nonempty d.first d.last
      rw [h] at hread
      exact d.nonempty (congrArg Prod.fst hread).symm
  cases n with
  | zero =>
    cases n' with
    | zero => rfl
    | decimal d => exact absurd h.symm (hzero d)
  | decimal d =>
    cases n' with
    | zero => exact absurd h (hzero d)
    | decimal d' => rw [Decimal.text_inj h]

theorem exponentText_chars (e : Int) : ∀ c ∈ exponentText e, isNumberChar c = true := by
  intro c hc
  rcases List.mem_cons.1 hc with rfl | hc
  · split
    · rfl
    · rfl
  · have hdigit : c.isDigit = true := Nat.isDigit_of_mem_toDigits (by decide) (by decide) hc
    rw [isNumberChar, hdigit]
    rfl

theorem magnitude_chars (d : Decimal) : ∀ c ∈ magnitude d.digits d.point, isNumberChar c = true := by
  have hdigit : ∀ c ∈ d.digits, isNumberChar c = true := fun c hc => by
    rw [isNumberChar, d.digit c hc]
    rfl
  have hzeros (a : Nat) : ∀ c ∈ List.replicate a '0', isNumberChar c = true := fun c hc => by
    rw [List.eq_of_mem_replicate hc]
    rfl
  have htake (n : Nat) : ∀ c ∈ d.digits.take n, isNumberChar c = true := fun c hc =>
    hdigit c (List.mem_of_mem_take hc)
  have hdrop (n : Nat) : ∀ c ∈ d.digits.drop n, isNumberChar c = true := fun c hc =>
    hdigit c (List.mem_of_mem_drop hc)
  have he := exponentText_chars (d.point - 1)
  unfold magnitude
  dsimp only
  split
  · exact List.forall_mem_append.2 ⟨hdigit, hzeros _⟩
  · split
    · exact List.forall_mem_append.2 ⟨htake _, List.forall_mem_cons.2 ⟨rfl, hdrop _⟩⟩
    · split
      · exact List.forall_mem_cons.2 ⟨rfl, List.forall_mem_cons.2 ⟨rfl, List.forall_mem_append.2 ⟨hzeros _, hdigit⟩⟩⟩
      · split
        · exact List.forall_mem_append.2 ⟨hdigit, List.forall_mem_cons.2 ⟨rfl, he⟩⟩
        · exact List.forall_mem_append.2 ⟨htake _, List.forall_mem_cons.2
            ⟨rfl, List.forall_mem_append.2 ⟨hdrop _, List.forall_mem_cons.2 ⟨rfl, he⟩⟩⟩⟩

theorem Number.text_chars (n : Number) : ∀ c ∈ n.text, isNumberChar c = true := by
  cases n with
  | zero => exact List.forall_mem_singleton.2 rfl
  | decimal d =>
    rw [text, Decimal.text]
    split
    · exact List.forall_mem_cons.2 ⟨rfl, magnitude_chars d⟩
    · exact magnitude_chars d

theorem Number.text_ne_nil (n : Number) : n.text ≠ [] := by
  cases n with
  | zero => exact List.cons_ne_nil _ _
  | decimal d =>
    obtain ⟨c, l, hhead, -⟩ := d.head_magnitude
    rw [text, Decimal.text, hhead]
    split
    · exact List.cons_ne_nil _ _
    · exact List.cons_ne_nil _ _

end Texts

/-! ## Strings -/

/-- A character within quotation marks. -/
def escape (c : Char) : List Char :=
  if c = '"' then ['\\', '"']
  else if c = '\\' then ['\\', '\\']
  else if c = '\x08' then ['\\', 'b']
  else if c = '\t' then ['\\', 't']
  else if c = '\n' then ['\\', 'n']
  else if c = '\x0c' then ['\\', 'f']
  else if c = '\r' then ['\\', 'r']
  else if c.toNat < 32 then ['\\', 'u', '0', '0', Nat.digitChar (c.toNat / 16), Nat.digitChar (c.toNat % 16)]
  else [c]

def quote (s : String) : List Char := '"' :: (s.toList.flatMap escape ++ ['"'])

def specials : List Char := '"' :: '\\' :: (List.range 32).map Char.ofNat

section Quotes
variable {c c' : Char} {s s' : String} {r r' : List Char}

theorem mem_specials (h : c.toNat < 32) : c ∈ specials :=
  List.mem_cons_of_mem _ (List.mem_cons_of_mem _ (List.mem_map.2 ⟨c.toNat, List.mem_range.2 h, Char.ofNat_toNat c⟩))

theorem escape_plain (h : c ∉ specials) : escape c = [c] := by
  have hne {d : Char} (hd : d ∈ specials) : c ≠ d := fun hcd => h (hcd ▸ hd)
  have hlarge : ¬ c.toNat < 32 := fun hlt => h (mem_specials hlt)
  rw [escape, if_neg (hne (by decide)), if_neg (hne (by decide)), if_neg (hne (by decide)), if_neg (hne (by decide)),
    if_neg (hne (by decide)), if_neg (hne (by decide)), if_neg (hne (by decide)), if_neg hlarge]

theorem head_escape : ∀ c ∈ specials, (escape c).head? = some '\\' := by
  have hall : specials.all (fun c => (escape c).head? = some '\\') = true := by decide +kernel
  exact fun c hc => of_decide_eq_true (List.all_eq_true.1 hall c hc)

theorem escape_specials : ∀ c ∈ specials, ∀ c' ∈ specials, escape c <+: escape c' → c = c' := by
  have hall : specials.all (fun c => specials.all fun c' => escape c <+: escape c' → c = c') = true := by decide +kernel
  exact fun c hc c' hc' => of_decide_eq_true (List.all_eq_true.1 (List.all_eq_true.1 hall c hc) c' hc')

theorem escape_ne_nil : escape c ≠ [] := by
  by_cases hc : c ∈ specials
  · intro h
    have hhead := head_escape c hc
    rw [h] at hhead
    cases hhead
  · rw [escape_plain hc]
    exact List.cons_ne_nil _ _

/-- No escape begins another. -/
theorem escape_unique (h : escape c <+: escape c') : c = c' := by
  by_cases hc : c ∈ specials
  · by_cases hc' : c' ∈ specials
    · exact escape_specials c hc c' hc' h
    · obtain ⟨t, ht⟩ := h
      have hhead := congrArg List.head? ht
      rw [List.head?_append, head_escape c hc, escape_plain hc', Option.some_or] at hhead
      obtain rfl : '\\' = c' := Option.some.inj hhead
      exact absurd (by decide) hc'
  · rw [escape_plain hc] at h
    obtain ⟨t, ht⟩ := h
    have hhead := congrArg List.head? ht
    by_cases hc' : c' ∈ specials
    · rw [head_escape c' hc'] at hhead
      obtain rfl : c = '\\' := Option.some.inj hhead
      exact absurd (by decide) hc
    · rw [escape_plain hc'] at hhead
      exact Option.some.inj hhead

/-- The closing mark begins no escape. -/
theorem head_escape_ne (c : Char) : (escape c).head? ≠ some '"' := by
  by_cases hc : c ∈ specials
  · rw [head_escape c hc]
    decide
  · rw [escape_plain hc]
    intro h
    obtain rfl : c = '"' := Option.some.inj h
    exact hc (by decide)

theorem escapes_append_inj {l l' : List Char} (h : l.flatMap escape ++ '"' :: r = l'.flatMap escape ++ '"' :: r') :
    l = l' ∧ r = r' := by
  have hstop (c : Char) (t u : List Char) : '"' :: t ≠ escape c ++ u := by
    intro h
    have hhead := congrArg List.head? h
    rw [List.head?_append, Option.or_of_isSome (by simpa using escape_ne_nil)] at hhead
    exact head_escape_ne c hhead.symm
  induction l generalizing l' with
  | nil =>
    cases l' with
    | nil => exact ⟨rfl, (List.cons.inj h).2⟩
    | cons c' l' =>
      rw [List.flatMap_cons, List.append_assoc] at h
      exact absurd h (hstop c' r _)
  | cons c l ih =>
    rw [List.flatMap_cons, List.append_assoc] at h
    cases l' with
    | nil => exact absurd h.symm (hstop c r' _)
    | cons c' l' =>
      rw [List.flatMap_cons, List.append_assoc] at h
      obtain rfl : c = c' := by
        rcases List.prefix_or_prefix_of_prefix ⟨_, h⟩ ⟨_, rfl⟩ with hp | hp
        · exact escape_unique hp
        · exact (escape_unique hp).symm
      obtain ⟨rfl, hr⟩ := ih (List.append_cancel_left h)
      exact ⟨rfl, hr⟩

theorem quote_append_inj (h : quote s ++ r = quote s' ++ r') : s = s' ∧ r = r' := by
  rw [quote, quote, List.cons_append, List.cons_append, List.append_assoc, List.append_assoc] at h
  obtain ⟨hs, hr⟩ := escapes_append_inj (List.cons.inj h).2
  exact ⟨String.toList_inj.1 hs, hr⟩

end Quotes

/-! ## Sequences -/

/-- What may stand behind a value ends a number. -/
def Stops (r : List Char) : Prop := ∀ c ∈ r.head?, isNumberChar c = false

/-- The items with a comma between them, and `close` at the end. -/
def closed {α : Type} (close : Char) (item : α → List Char) : List α → List Char
  | [] => [close]
  | [a] => item a ++ [close]
  | a :: b :: l => item a ++ ',' :: closed close item (b :: l)

section Sequences
variable {α : Type} {close : Char} {item : α → List Char} {R : α → α → Prop} {l l' : List α} {r r' : List Char}

theorem Stops.cons {c : Char} (h : isNumberChar c = false) (l : List Char) : Stops (c :: l) := fun _ hd => by
  cases hd
  exact h

/-- A sequence ends where it is closed, if its items tell where they end. -/
theorem closed_append_inj (hnumber : isNumberChar close = false) (hcomma : close ≠ ',')
    (hitem : ∀ a, ∃ c t, item a = c :: t ∧ c ≠ close)
    (hread : ∀ a ∈ l, ∀ b ∈ l', ∀ t u, Stops t → Stops u → item a ++ t = item b ++ u → R a b ∧ t = u)
    (h : closed close item l ++ r = closed close item l' ++ r') : List.Forall₂ R l l' ∧ r = r' := by
  have hempty (a : α) (l : List α) (t u : List Char) : close :: t ≠ closed close item (a :: l) ++ u := by
    intro h
    obtain ⟨c, t', hc, hne⟩ := hitem a
    cases l with
    | nil =>
      rw [closed, hc] at h
      exact hne (List.cons.inj h).1.symm
    | cons b l =>
      rw [closed, hc] at h
      exact hne (List.cons.inj h).1.symm
  have hclose (t : List Char) : Stops (close :: t) := .cons hnumber t
  have hmore (t : List Char) : Stops (',' :: t) := .cons rfl t
  induction l generalizing l' with
  | nil =>
    cases l' with
    | nil => exact ⟨.nil, (List.cons.inj h).2⟩
    | cons b l' => exact absurd h (hempty b l' r r')
  | cons a l ih =>
    cases l' with
    | nil => exact absurd h.symm (hempty a l r' r)
    | cons b l' =>
      have hhead := hread a List.mem_cons_self b List.mem_cons_self
      have htail : ∀ a ∈ l, ∀ b ∈ l', ∀ t u, Stops t → Stops u → item a ++ t = item b ++ u → R a b ∧ t = u :=
        fun a ha b hb => hread a (List.mem_cons_of_mem _ ha) b (List.mem_cons_of_mem _ hb)
      cases l with
      | nil =>
        cases l' with
        | nil =>
          rw [closed, closed, List.append_assoc, List.append_assoc] at h
          obtain ⟨hab, hr⟩ := hhead _ _ (hclose r) (hclose r') h
          exact ⟨.cons hab .nil, (List.cons.inj hr).2⟩
        | cons b' l' =>
          rw [closed, closed, List.append_assoc, List.append_assoc] at h
          obtain ⟨-, hr⟩ := hhead _ _ (hclose r) (hmore _) h
          exact absurd (List.cons.inj hr).1 hcomma
      | cons a' l =>
        cases l' with
        | nil =>
          rw [closed, closed, List.append_assoc, List.append_assoc] at h
          obtain ⟨-, hr⟩ := hhead _ _ (hmore _) (hclose r') h
          exact absurd (List.cons.inj hr).1.symm hcomma
        | cons b' l' =>
          rw [closed, closed, List.append_assoc, List.append_assoc] at h
          obtain ⟨hab, hr⟩ := hhead _ _ (hmore _) (hmore _) h
          obtain ⟨hl, hr⟩ := ih htail (List.cons.inj hr).2
          exact ⟨.cons hab hl, hr⟩

end Sequences

/-! ## Values -/

namespace Value

mutual

def text : Value Empty → List Char
  | .null => ['n', 'u', 'l', 'l']
  | .boolean true => ['t', 'r', 'u', 'e']
  | .boolean false => ['f', 'a', 'l', 's', 'e']
  | .number n => n.text
  | .string s => quote s
  | .date d => d.elim
  | .array es => '[' :: closed ']' id (elementTexts es)
  | .object fs => '\x7b' :: closed '\x7d' id (memberTexts fs)

def elementTexts : List (Value Empty) → List (List Char)
  | [] => []
  | v :: es => v.text :: elementTexts es

def memberTexts : List (String × Option (Value Empty)) → List (List Char)
  | [] => []
  | (k, some v) :: fs => (quote k ++ ':' :: v.text) :: memberTexts fs
  | (_, none) :: fs => memberTexts fs

end

def memberText (p : String × Value Empty) : List Char := quote p.1 ++ ':' :: p.2.text

section Texts
variable {v w : Value Empty} {r r' : List Char}

theorem elementTexts_eq (es : List (Value Empty)) : elementTexts es = es.map text := by
  induction es with
  | nil => rfl
  | cons v es ih => rw [elementTexts, ih, List.map_cons]

theorem memberTexts_eq (fs : List (String × Option (Value Empty))) : memberTexts fs = (members fs).map memberText := by
  induction fs with
  | nil => rfl
  | cons f fs ih =>
    obtain ⟨k, o⟩ := f
    cases o with
    | none => rw [memberTexts, ih, members, members, List.filterMap_cons]; rfl
    | some v => rw [memberTexts, ih, members, members, List.filterMap_cons]; rfl

theorem closed_map {α : Type} {close : Char} {item : α → List Char} {l : List α} :
    closed close id (l.map item) = closed close item l := by
  induction l with
  | nil => rfl
  | cons a l ih =>
    cases l with
    | nil => rfl
    | cons b l =>
      rw [List.map_cons, List.map_cons, closed, closed, ← ih, List.map_cons]
      rfl

/-- The kind of value that begins so. -/
def shapeOf (c : Char) : Nat :=
  if isNumberChar c then 2 else if c = 'n' then 0 else if c = 't' ∨ c = 'f' then 1 else if c = '"' then 3
  else if c = '[' then 4 else if c = '\x7b' then 5 else 6

theorem head_text (v : Value Empty) : ∃ c l, v.text = c :: l ∧ shapeOf c = v.shape := by
  cases v with
  | null => exact ⟨_, _, by rw [text], rfl⟩
  | boolean b =>
    cases b with
    | true => exact ⟨_, _, by rw [text], rfl⟩
    | false => exact ⟨_, _, by rw [text], rfl⟩
  | number n =>
    obtain ⟨c, l, hn⟩ := List.exists_cons_of_ne_nil n.text_ne_nil
    exact ⟨c, l, by rw [text, hn], if_pos (n.text_chars c (hn ▸ List.mem_cons_self))⟩
  | string s => exact ⟨_, _, by rw [text, quote], rfl⟩
  | date d => exact d.elim
  | array es => exact ⟨_, _, by rw [text], rfl⟩
  | object fs => exact ⟨_, _, by rw [text], rfl⟩

theorem head_text_ne {close : Char} (h : shapeOf close = 6) (v : Value Empty) : ∃ c l, v.text = c :: l ∧ c ≠ close := by
  obtain ⟨c, l, hl, hc⟩ := head_text v
  refine ⟨c, l, hl, fun hclose => ?_⟩
  rw [hclose, h] at hc
  cases v with
  | _ => cases hc

theorem shape_eq_of_text (h : v.text ++ r = w.text ++ r') : v.shape = w.shape := by
  obtain ⟨c, l, hv, hc⟩ := head_text v
  obtain ⟨c', l', hw, hc'⟩ := head_text w
  rw [hv, hw] at h
  obtain ⟨rfl, -⟩ := List.cons.inj h
  exact hc.symm.trans hc'

/-- A text tells where it ends, and of which value it is. -/
theorem text_append_inj (hv : Keyed v) (hw : Keyed w) (hr : Stops r) (hr' : Stops r') (h : v.text ++ r = w.text ++ r') :
    Agree (· = ·) False v w ∧ r = r' := by
  have hshape := shape_eq_of_text h
  induction v using Value.induction generalizing w r r' with
  | null =>
    cases w with
    | null => exact ⟨.null, List.append_cancel_left h⟩
    | _ => cases hshape
  | boolean b =>
    cases w with
    | boolean b' =>
      cases b with
      | true =>
        cases b' with
        | true => exact ⟨.boolean true, List.append_cancel_left h⟩
        | false =>
          rw [text, text] at h
          exact absurd (List.cons.inj h).1 (by decide)
      | false =>
        cases b' with
        | true =>
          rw [text, text] at h
          exact absurd (List.cons.inj h).1 (by decide)
        | false => exact ⟨.boolean false, List.append_cancel_left h⟩
    | _ => cases hshape
  | number n =>
    cases w with
    | number n' =>
      rw [text, text] at h
      obtain ⟨ht, hd⟩ := span_append n.text r n.text_chars hr
      obtain ⟨ht', hd'⟩ := span_append n'.text r' n'.text_chars hr'
      rw [h] at ht hd
      obtain rfl := Number.text_inj (ht.symm.trans ht')
      exact ⟨.number n, hd.symm.trans hd'⟩
    | _ => cases hshape
  | string s =>
    cases w with
    | string s' =>
      rw [text, text] at h
      obtain ⟨rfl, hr⟩ := quote_append_inj h
      exact ⟨.string s, hr⟩
    | _ => cases hshape
  | date d => exact d.elim
  | array es ih =>
    cases w with
    | array es' =>
      cases hv with
      | array hv =>
        cases hw with
        | array hw =>
          rw [text, text, elementTexts_eq, elementTexts_eq, closed_map, closed_map] at h
          obtain ⟨hall, hr⟩ := closed_append_inj rfl (by decide) (head_text_ne rfl) (R := Agree (· = ·) False)
            (fun v hmem w hmem' t u ht hu he => ih v hmem (hv v hmem) (hw w hmem') ht hu he (shape_eq_of_text he))
            (List.cons.inj h).2
          exact ⟨.array hall.length_eq fun p hp => (List.forall₂_iff_zip.1 hall).2 hp, hr⟩
    | _ => cases hshape
  | object fs ih =>
    cases w with
    | object fs' =>
      cases hv with
      | object hk hv =>
        cases hw with
        | object hk' hw =>
          rw [text, text, memberTexts_eq, memberTexts_eq, closed_map, closed_map] at h
          obtain ⟨hall, hr⟩ := closed_append_inj rfl (by decide) (fun p => ⟨'"', _, rfl, by decide⟩)
            (R := fun p q : String × Value Empty => p.1 = q.1 ∧ Agree (· = ·) False p.2 q.2)
            (fun p hmem q hmem' t u ht hu he => by
              have he : (quote p.1 ++ ':' :: p.2.text) ++ t = (quote q.1 ++ ':' :: q.2.text) ++ u := he
              rw [List.append_assoc, List.append_assoc] at he
              obtain ⟨hkey, he⟩ := quote_append_inj he
              have he := (List.cons.inj he).2
              obtain ⟨hagree, htu⟩ := ih p.1 p.2 (mem_members.1 hmem) (hv _ _ (mem_members.1 hmem))
                (hw _ _ (mem_members.1 hmem')) ht hu he (shape_eq_of_text he)
              exact ⟨⟨hkey, hagree⟩, htu⟩) (List.cons.inj h).2
          refine ⟨.of_members ?_ hk' hall, hr⟩
          rw [keys_eq, keys_eq]
          rw [← List.forall₂_eq_eq_eq, List.forall₂_map_left_iff, List.forall₂_map_right_iff]
          exact hall.imp fun _ _ h => h.1
    | date d => exact d.elim
    | _ => cases hshape

theorem text_eq_of_agree (h : Agree (· = ·) False v w) : v.text = w.text := by
  induction h with
  | null => rfl
  | boolean b => rfl
  | number n => rfl
  | string s => rfl
  | date d => rfl
  | blank h _ _ => exact h.elim
  | @array es es' hl _ ih =>
    rw [text, text, elementTexts_eq, elementTexts_eq]
    refine congrArg (fun l => '[' :: closed ']' id l) (List.ext_getElem ?_ fun i hi hi' => ?_)
    · rw [List.length_map, List.length_map, hl]
    · rw [List.length_map] at hi hi'
      rw [List.getElem_map, List.getElem_map]
      exact ih (es[i], es'[i]) (List.mem_iff_getElem.2 ⟨i, by rw [List.length_zip]; omega, List.getElem_zip⟩)
  | @object fs fs' hk _ ih =>
    rw [text, text, memberTexts_eq, memberTexts_eq]
    refine congrArg (fun l => '\x7b' :: closed '\x7d' id l) ?_
    rw [keys_eq, keys_eq] at hk
    have hvalues : ∀ p ∈ members fs, ∀ q ∈ members fs', p.1 = q.1 → memberText p = memberText q := by
      rintro ⟨k, v⟩ hp ⟨k', w⟩ hq rfl
      rw [memberText, memberText, ih k v w (mem_members.1 hp) (mem_members.1 hq)]
    generalize members fs = l at hk hvalues
    generalize members fs' = l' at hk hvalues
    induction l generalizing l' with
    | nil =>
      rw [List.map_nil, eq_comm, List.map_eq_nil_iff] at hk
      rw [hk]
    | cons p l ih =>
      cases l' with
      | nil => cases hk
      | cons q l' =>
        rw [List.map_cons, List.map_cons] at hk ⊢
        obtain ⟨hkey, hk⟩ := List.cons.inj hk
        rw [hvalues p List.mem_cons_self q List.mem_cons_self hkey, ih l' hk fun p hp q hq =>
          hvalues p (List.mem_cons_of_mem _ hp) q (List.mem_cons_of_mem _ hq)]

/-- Texts are equal only for values that agree, fields in order. -/
theorem text_eq_iff (hv : Keyed v) (hw : Keyed w) : v.text = w.text ↔ Agree (· = ·) False v w := by
  refine ⟨fun h => ?_, text_eq_of_agree⟩
  have hstops : Stops [] := fun c hc => by cases hc
  exact (text_append_inj hv hw hstops hstops (by rw [h])).1

end Texts
end Value

/-! ## Lines -/

theorem escape_line (c : Char) : ∀ d ∈ escape c, d ≠ '\n' ∧ d ≠ '\r' := by
  by_cases hc : c ∈ specials
  · have hall : specials.all (fun c => (escape c).all fun d => d ≠ '\n' ∧ d ≠ '\r') = true := by decide +kernel
    exact fun d hd => of_decide_eq_true (List.all_eq_true.1 (List.all_eq_true.1 hall c hc) d hd)
  · rw [escape_plain hc, List.forall_mem_singleton]
    constructor <;> rintro rfl <;> exact hc (by decide)

theorem quote_line (s : String) : ∀ d ∈ quote s, d ≠ '\n' ∧ d ≠ '\r' := by
  refine List.forall_mem_cons.2 ⟨by simp, List.forall_mem_append.2 ⟨fun d hd => ?_, by simp⟩⟩
  obtain ⟨c, -, hc⟩ := List.mem_flatMap.1 hd
  exact escape_line c d hc

theorem number_line (n : Number) : ∀ d ∈ n.text, d ≠ '\n' ∧ d ≠ '\r' := by
  intro d hd
  have hchar := n.text_chars d hd
  constructor <;> rintro rfl <;> exact absurd hchar (by decide)

theorem closed_line {close : Char} (hclose : close ≠ '\n' ∧ close ≠ '\r') {texts : List (List Char)}
    (h : ∀ t ∈ texts, ∀ d ∈ t, d ≠ '\n' ∧ d ≠ '\r') : ∀ d ∈ closed close id texts, d ≠ '\n' ∧ d ≠ '\r' := by
  induction texts with
  | nil => exact List.forall_mem_singleton.2 hclose
  | cons t texts ih =>
    obtain ⟨ht, htexts⟩ := List.forall_mem_cons.1 h
    cases texts with
    | nil => exact List.forall_mem_append.2 ⟨ht, List.forall_mem_singleton.2 hclose⟩
    | cons t' texts =>
      exact List.forall_mem_append.2 ⟨ht, List.forall_mem_cons.2 ⟨by decide, ih htexts⟩⟩

/-- No text ends a line. -/
theorem Value.text_line (v : Value Empty) : ∀ d ∈ v.text, d ≠ '\n' ∧ d ≠ '\r' := by
  induction v using Value.induction with
  | null => rw [text]; simp
  | boolean b => cases b <;> rw [text] <;> simp
  | number n => rw [text]; exact number_line n
  | string s => rw [text]; exact quote_line s
  | date d => exact d.elim
  | array es ih =>
    rw [text, elementTexts_eq]
    exact List.forall_mem_cons.2 ⟨by decide, closed_line (by decide) (List.forall_mem_map.2 ih)⟩
  | object fs ih =>
    rw [text, memberTexts_eq]
    refine List.forall_mem_cons.2 ⟨by decide, closed_line (by decide) (List.forall_mem_map.2 fun f hf => ?_)⟩
    obtain ⟨⟨k, o⟩, hmem, hsome⟩ := List.mem_filterMap.1 hf
    cases o with
    | none => cases hsome
    | some v =>
      cases hsome
      exact List.forall_mem_append.2 ⟨quote_line k, List.forall_mem_cons.2 ⟨by decide, ih k v hmem⟩⟩

end Json
