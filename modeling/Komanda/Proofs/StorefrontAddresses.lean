import Mathlib.Data.List.Infix
import Komanda.StorefrontAddresses

/-!
# A storefront is where its link leads

The link that the directory makes of a slug is read back by the proxy as that slug, and the way back to the directory
carries none. What decides is the name of the host alone: `Names url name` says which name a link has, whatever its
port, and `slugFromHost` is computed on the two kinds of names, below `.localhost` and below the root domain.
-/

namespace Komanda.PublicSite

variable {site : SiteSettings} {request : NextRequest} {options : LinkOptions}
  {slug root name s url p q : List Char} {c : Char}

/-! ## What is said of the addresses -/

/-- A root domain that is the name of a host: it has a letter, and no port or path. -/
structure HostName (root : List Char) : Prop where
  letter : ∃ c ∈ root, 'a' ≤ c ∧ c ≤ 'z'
  plain : ∀ c ∈ root, c ≠ ':' ∧ c ≠ '/' ∧ c ≠ ',' ∧ Text.isSpace c = false

def afterScheme : List Char → List Char
  | ':' :: '/' :: '/' :: rest => rest
  | _ :: rest => afterScheme rest
  | [] => []

/-- What a browser asks for the URL: the text between `://` and the path. -/
def urlHost (url : List Char) : List Char := (afterScheme url).takeWhile (· ≠ '/')

/-- The host of the URL, with any port or none. -/
def HostOf (url host : List Char) : Prop :=
  ∃ port, (port = [] ∨ ∃ digits, port = ':' :: digits ∧ ∀ c ∈ digits, c.isDigit = true) ∧
    host = hostWithoutPort (urlHost url) ++ port

/-- A request for the URL, directly or passed on by a proxy, that brings any other headers. -/
structure Asks (request : NextRequest) (url : List Char) : Prop where
  path : storefrontPath request.pathname = none
  host : ∃ host, HostOf url host ∧
    (header "x-forwarded-host" request.headers).or (header "host" request.headers) = some host

/-- The slug that the pages are told of. -/
def hint (site : SiteSettings) (request : NextRequest) : Option (List Char) :=
  header TENANT_HINT_HEADER (proxy site request)

/-- The link stays outside of the domains that are taken for the local one. -/
def Reached (site : SiteSettings) (options : LinkOptions) : Prop :=
  isLocal site options = true ∨ ¬ dotLocalhost <:+ storefrontRootDomain site

structure Addressed (site : SiteSettings) : Prop where
  /-- The link of a slug leads to its storefront. -/
  opens : ∀ slug options request, isSlug slug = true → (∀ protocol ∈ options.protocol, '/' ∉ protocol) →
    Asks request (buildStorefrontUrl site slug options) → (hint site request = some slug ↔ Reached site options)
  /-- No request is for the storefronts of two slugs. -/
  apart : ∀ slug slug' options options' request, isSlug slug = true → isSlug slug' = true →
    (∀ protocol ∈ options.protocol, '/' ∉ protocol) → (∀ protocol ∈ options'.protocol, '/' ∉ protocol) →
    Reached site options → Reached site options' → Asks request (buildStorefrontUrl site slug options) →
    Asks request (buildStorefrontUrl site slug' options') → slug = slug'
  /-- The link back leads to the directory, on which no storefront is open. -/
  returns : ∀ slug options host (protocol : Option (List Char)) (window : Option (List Char × List Char)) request,
    isSlug slug = true →
    (∀ protocol ∈ options.protocol, '/' ∉ protocol) → (∀ p ∈ protocol, '/' ∉ p) →
    (∀ w ∈ window, '/' ∉ w.2) → Reached site options →
    HostOf (buildStorefrontUrl site slug options) host →
    Asks request (buildPublicDirectoryUrl { host := some host, protocol } (some slug) window) →
    hint site request = none
  /-- Nothing but its own hosts opens a storefront, in any case of letters. -/
  only : ∀ request slug, storefrontPath request.pathname = none → hint site request = some slug → isSlug slug = true ∧
    ∃ host part, (header "x-forwarded-host" request.headers).or (header "host" request.headers) = some host ∧
      toLowerCase (trim part) = slug ∧
      (toLowerCase (hostWithoutPort host) = part ++ dotLocalhost ∨
        toLowerCase (hostWithoutPort host) = part ++ '.' :: storefrontRootDomain site)
  /-- A client cannot name the storefront itself, and nothing else of its headers is changed. -/
  trusted : ∀ request request' : NextRequest, request.pathname = request'.pathname →
    header "x-forwarded-host" request.headers = header "x-forwarded-host" request'.headers →
    header "host" request.headers = header "host" request'.headers → hint site request = hint site request'
  passed : ∀ request name, name ≠ TENANT_HINT_HEADER → header name (proxy site request) = header name request.headers

/-! ## Slugs -/

theorem slugChar_range (h : slugChar c = true) : (48 ≤ c.toNat ∧ c.toNat ≤ 57) ∨ (97 ≤ c.toNat ∧ c.toNat ≤ 122) := by
  rw [slugChar, Bool.or_eq_true, Bool.and_eq_true, decide_eq_true_iff, decide_eq_true_iff] at h
  rcases h with h | h
  · exact .inr h
  · exact .inl (Text.digit_range h)

theorem mem_intercalate {l : List (List Char)} {d : Char} (h : c ∈ [d].intercalate l) :
    c = d ∨ ∃ part ∈ l, c ∈ part := by
  induction l with
  | nil => simp [List.intercalate] at h
  | cons part l ih =>
    cases l with
    | nil => exact .inr ⟨part, List.mem_cons_self, by simpa [List.intercalate] using h⟩
    | cons part' l =>
      have hparts : [d].intercalate (part :: part' :: l) = part ++ d :: [d].intercalate (part' :: l) := by
        simp [List.intercalate]
      rw [hparts, List.mem_append, List.mem_cons] at h
      rcases h with h | rfl | h
      · exact .inr ⟨part, List.mem_cons_self, h⟩
      · exact .inl rfl
      · rcases ih h with rfl | ⟨q, hq, hc⟩
        · exact .inl rfl
        · exact .inr ⟨q, List.mem_cons_of_mem _ hq, hc⟩

theorem mem_slug (h : isSlug s = true) (hc : c ∈ s) : c = '-' ∨ slugChar c = true := by
  rw [show s = ['-'].intercalate (s.splitOn '-') from (List.intercalate_splitOn '-').symm] at hc
  rcases mem_intercalate hc with rfl | ⟨part, hpart, hc⟩
  · exact .inl rfl
  · have hall := List.all_eq_true.1 h part hpart
    rw [Bool.and_eq_true] at hall
    exact .inr (List.all_eq_true.1 hall.2 c hc)

/-- A character of a name that stays as it is wherever the name is read. -/
structure HostChar (c : Char) : Prop where
  lower : Text.lowerChar c = c
  space : Text.isSpace c = false
  colon : c ≠ ':'
  slash : c ≠ '/'
  comma : c ≠ ','

theorem slug_plain (h : isSlug s = true) (hc : c ∈ s) : HostChar c ∧ c ≠ '.' := by
  have hrange : c.toNat = 45 ∨ (48 ≤ c.toNat ∧ c.toNat ≤ 57) ∨ (97 ≤ c.toNat ∧ c.toNat ≤ 122) := by
    rcases mem_slug h hc with rfl | hchar
    · exact .inl rfl
    · exact .inr (slugChar_range hchar)
  have hne {d : Char} (hd : c.toNat ≠ d.toNat) : c ≠ d := fun heq => hd (congrArg Char.toNat heq)
  refine ⟨⟨?_, ?_, hne ?_, hne ?_, hne ?_⟩, hne ?_⟩
  · rw [Text.lowerChar, if_neg]
    simp
    omega
  · rw [Text.isSpace]
    simp
    omega
  all_goals
    simp
    omega

theorem isSlug_localhost : isSlug "localhost".toList = true := by
  rw [isSlug, List.splitOn_eq_singleton (by simp)]
  simp [slugChar]

theorem slug_ne_nil (h : isSlug s = true) : s ≠ [] := by
  rintro rfl
  simp [isSlug] at h

theorem trim_plain (h : ∀ c ∈ s, Text.isSpace c = false) : trim s = s := by
  have hkeep : ∀ l : List Char, (∀ c ∈ l, Text.isSpace c = false) → l.dropWhile Text.isSpace = l := by
    intro l hl
    cases l with
    | nil => rfl
    | cons c l => exact List.dropWhile_cons_of_neg (Bool.eq_false_iff.1 (hl c List.mem_cons_self))
  rw [trim, hkeep _ h, hkeep _ fun c hc => h c (List.mem_reverse.1 hc), List.reverse_reverse]

theorem toLowerCase_plain (h : ∀ c ∈ s, Text.lowerChar c = c) : toLowerCase s = s := by
  induction s with
  | nil => rfl
  | cons c s ih =>
    rw [toLowerCase, List.map_cons, h c List.mem_cons_self]
    exact congrArg _ (ih fun d hd => h d (List.mem_cons_of_mem _ hd))

theorem mem_dropWhile_of (h : c ∈ s) (hc : Text.isSpace c = false) : c ∈ s.dropWhile Text.isSpace := by
  induction s with
  | nil => exact h
  | cons d s ih =>
    cases hd : Text.isSpace d with
    | false => rwa [List.dropWhile_cons_of_neg (by simp [hd])]
    | true =>
      rw [List.dropWhile_cons_of_pos hd]
      rcases List.mem_cons.1 h with rfl | h
      · rw [hd] at hc
        exact absurd hc (by simp)
      · exact ih h

theorem mem_trim (h : c ∈ s) (hc : Text.isSpace c = false) : c ∈ trim s :=
  List.mem_reverse.2 (mem_dropWhile_of (List.mem_reverse.2 (mem_dropWhile_of h hc)) hc)

theorem normalizedSlug_slug (h : isSlug s = true) : normalizedSlug s = some s := by
  have hsame : toLowerCase (trim s) = s := by
    rw [trim_plain fun c hc => (slug_plain h hc).1.space]
    exact toLowerCase_plain fun c hc => (slug_plain h hc).1.lower
  rw [normalizedSlug, hsame, if_pos]
  simp [h, slug_ne_nil h]

theorem normalizedSlug_some (h : normalizedSlug p = some s) : isSlug s = true ∧ toLowerCase (trim p) = s := by
  rw [normalizedSlug] at h
  split at h
  · rename_i hslug
    obtain rfl := Option.some.inj h
    rw [Bool.and_eq_true] at hslug
    exact ⟨hslug.2, rfl⟩
  · exact nomatch h

/-- A slug is one label of a name. -/
theorem normalizedSlug_dotted (h : '.' ∈ p) : normalizedSlug p = none := by
  cases hslug : normalizedSlug p with
  | none => rfl
  | some s =>
    obtain ⟨hs, hp⟩ := normalizedSlug_some hslug
    have hdot : '.' ∈ s := by
      rw [← hp]
      exact List.mem_map.2 ⟨'.', mem_trim h (by decide), by decide⟩
    exact absurd rfl (slug_plain hs hdot).2

/-! ## Names of hosts -/

theorem toNat_ofNat_of_lt {n : Nat} (h : n < 0xd800) : (Char.ofNat n).toNat = n := by
  rw [Char.ofNat, dif_pos (.inl h)]
  rfl

theorem lowerChar_lowerChar (c : Char) : Text.lowerChar (Text.lowerChar c) = Text.lowerChar c := by
  by_cases hupper : (0x41 ≤ c.toNat ∧ c.toNat ≤ 0x5A) ∨ (0xC0 ≤ c.toNat ∧ c.toNat ≤ 0xDE ∧ c.toNat ≠ 0xD7)
  · have hlower : Text.lowerChar c = Char.ofNat (c.toNat + 0x20) := by
      rw [Text.lowerChar, if_pos]
      simpa [and_assoc] using hupper
    have hnat : (Text.lowerChar c).toNat = c.toNat + 0x20 := by
      rw [hlower, toNat_ofNat_of_lt (by omega)]
    rw [Text.lowerChar, if_neg]
    simp only [hnat, Bool.or_eq_true, Bool.and_eq_true, decide_eq_true_eq, ne_eq]
    omega
  · have hsame : Text.lowerChar c = c := by
      rw [Text.lowerChar, if_neg]
      simpa [and_assoc] using hupper
    rw [hsame, hsame]

/-- The root domain is in lower case, wherever it comes from. -/
theorem storefrontRootDomain_lower (site : SiteSettings) :
    ∀ c ∈ storefrontRootDomain site, Text.lowerChar c = c := by
  have hlower : ∀ s : List Char, ∀ c ∈ toLowerCase s, Text.lowerChar c = c := by
    intro s c hc
    obtain ⟨d, -, rfl⟩ := List.mem_map.1 hc
    exact lowerChar_lowerChar d
  have hlegacy : ∀ c ∈ legacyRootDomain site, Text.lowerChar c = c := by
    intro c hc
    rw [legacyRootDomain] at hc
    cases hroot : site.STOREFRONT_ROOT_DOMAIN with
    | none =>
      rw [hroot] at hc
      exact (slug_plain isSlug_localhost hc).1.lower
    | some root =>
      rw [hroot, Option.map_some, orElse] at hc
      split at hc
      · exact (slug_plain isSlug_localhost hc).1.lower
      · exact hlower _ c hc
  intro c hc
  rw [storefrontRootDomain] at hc
  split at hc
  · exact hlegacy c hc
  · split at hc
    · exact hlegacy c hc
    · split at hc
      · exact hlegacy c hc
      · exact hlower _ c hc

theorem storefrontRootDomain_plain (hroot : HostName (storefrontRootDomain site)) :
    ∀ c ∈ storefrontRootDomain site, HostChar c := by
  intro c hc
  obtain ⟨hcolon, hslash, hcomma, hspace⟩ := hroot.plain c hc
  exact ⟨storefrontRootDomain_lower site c hc, hspace, hcolon, hslash, hcomma⟩

theorem HostName.ne_nil (h : HostName root) : root ≠ [] := by
  obtain ⟨c, hc, -⟩ := h.letter
  exact List.ne_nil_of_mem hc

theorem hostWithoutPort_append {port : List Char} (hname : ':' ∉ name)
    (hport : port = [] ∨ ∃ digits, port = ':' :: digits) :
    hostWithoutPort (name ++ port) = name := by
  rw [hostWithoutPort]
  rcases hport with rfl | ⟨digits, rfl⟩
  · rw [List.append_nil, List.splitOn_eq_singleton hname, List.headD_cons]
  · rw [List.splitOn_append_cons_self_of_not_mem hname, List.headD_cons]

theorem portSuffix_cases (host : List Char) : portSuffix host = [] ∨ ∃ digits, portSuffix host = ':' :: digits := by
  rw [portSuffix]
  split
  · exact .inl rfl
  · rename_i port _
    split
    · exact .inl rfl
    · exact .inr ⟨port, rfl⟩

theorem sliceEnd_append (p ending : List Char) : sliceEnd ending.length (p ++ ending) = p := by simp [sliceEnd]

/-- The name below `.localhost` that a slug has. -/
theorem slugFromHost_local (h : isSlug slug = true) : slugFromHost site (slug ++ dotLocalhost) = some slug := by
  have hne : slug ++ dotLocalhost ≠ [] := by simp [slug_ne_nil h]
  rw [slugFromHost, if_neg hne, if_pos (List.suffix_append _ _), sliceEnd_append, normalizedSlug_slug h]

theorem dotless_localhost : '.' ∉ "localhost".toList := by simp

theorem localhost_suffix (root : List Char) : dotLocalhost <:+ p ++ '.' :: root ↔
    root = "localhost".toList ∨ dotLocalhost <:+ root := by
  constructor
  · intro h
    rcases List.suffix_or_suffix_of_suffix h (List.suffix_append p ('.' :: root)) with hin | hover
    · rcases List.suffix_cons_iff.1 hin with heq | hin
      · exact .inl (List.cons.inj heq).2.symm
      · exact .inr hin
    · rcases List.suffix_cons_iff.1 hover with heq | hover
      · exact .inl (List.cons.inj heq).2
      · exact absurd (hover.subset List.mem_cons_self) dotless_localhost
  · rintro (rfl | h)
    · exact List.suffix_append _ _
    · exact (h.trans (List.suffix_cons _ _)).trans (List.suffix_append _ _)

theorem storefrontRootDomain_eq (h : isLocal site options = false) :
    storefrontRootDomain site ≠ "localhost".toList := by
  intro heq
  rw [isLocal, heq] at h
  simp at h

/-- The name below the root domain that a slug has. -/
theorem slugFromHost_root (hroot : HostName (storefrontRootDomain site))
    (hne : storefrontRootDomain site ≠ "localhost".toList) (h : isSlug slug = true) :
    slugFromHost site (slug ++ '.' :: storefrontRootDomain site) = some slug ↔
      ¬ dotLocalhost <:+ storefrontRootDomain site := by
  generalize hr : storefrontRootDomain site = root at hroot hne
  have hnil : slug ++ '.' :: root ≠ [] := by simp
  rw [slugFromHost, if_neg hnil]
  by_cases hlocal : dotLocalhost <:+ root
  · have hdot : '.' ∈ sliceEnd dotLocalhost.length (slug ++ '.' :: root) := by
      obtain ⟨sub, rfl⟩ := hlocal
      have hslice : sliceEnd dotLocalhost.length (slug ++ '.' :: (sub ++ dotLocalhost)) = slug ++ '.' :: sub := by
        rw [← List.cons_append, ← List.append_assoc, sliceEnd_append]
      rw [hslice]
      simp
    rw [if_pos ((localhost_suffix root).2 (.inr hlocal)), normalizedSlug_dotted hdot]
    exact iff_of_false (by simp) (not_not.2 hlocal)
  · have hself : slug ++ '.' :: root ≠ root := by
      intro heq
      have := congrArg List.length heq
      simp at this
      omega
    have hslice : sliceEnd (root.length + 1) (slug ++ '.' :: root) = slug := sliceEnd_append slug ('.' :: root)
    rw [if_neg fun hin => ((localhost_suffix root).1 hin).elim hne hlocal, hr, if_neg, hslice, normalizedSlug_slug h]
    · exact iff_of_true rfl hlocal
    · rintro (hnil | heq | hnot)
      · exact hroot.ne_nil hnil
      · exact hself heq
      · exact hnot (List.suffix_append _ _)

/-- Neither the root domain nor `localhost` is below another domain. -/
theorem slugFromHost_directory (h : name = storefrontRootDomain site ∧ ¬ dotLocalhost <:+ storefrontRootDomain site ∨
    name = "localhost".toList) : slugFromHost site name = none := by
  rw [slugFromHost]
  split
  · rfl
  · rcases h with ⟨rfl, hlocal⟩ | rfl
    · rw [if_neg hlocal, if_pos (.inr (.inl rfl))]
    · rw [if_neg (by decide), if_pos]
      exact .inr (.inr fun hin => dotless_localhost (hin.subset List.mem_cons_self))

/-- Whatever slug is read off a name, the name is below one of the two domains. -/
theorem slugFromHost_some (h : slugFromHost site name = some s) :
    isSlug s = true ∧ ∃ part, toLowerCase (trim part) = s ∧
    (name = part ++ dotLocalhost ∨ name = part ++ '.' :: storefrontRootDomain site) := by
  rw [slugFromHost] at h
  split at h
  · exact nomatch h
  · split at h
    · rename_i hlocal
      obtain ⟨part, rfl⟩ := hlocal
      rw [sliceEnd_append] at h
      obtain ⟨hs, hp⟩ := normalizedSlug_some h
      exact ⟨hs, part, hp, .inl rfl⟩
    · split at h
      · exact nomatch h
      · rename_i hbelow
        obtain ⟨part, rfl⟩ : '.' :: storefrontRootDomain site <:+ name :=
          Classical.byContradiction fun hnot => hbelow (.inr (.inr hnot))
        have hpart : sliceEnd ((storefrontRootDomain site).length + 1) (part ++ '.' :: storefrontRootDomain site) =
            part := sliceEnd_append part ('.' :: storefrontRootDomain site)
        rw [hpart] at h
        obtain ⟨hs, hp⟩ := normalizedSlug_some h
        exact ⟨hs, part, hp, .inr rfl⟩

/-! ## Requests -/

theorem header_without (headers : List (String × List Char)) {dropped key : String} (h : key ≠ dropped) :
    header key (headers.filter (·.1 ≠ dropped)) = header key headers := by
  induction headers with
  | nil => rfl
  | cons entry headers ih =>
    simp only [header] at ih ⊢
    by_cases hdropped : entry.1 = dropped
    · rw [List.filter_cons_of_neg (by simpa using hdropped), List.find?_cons_of_neg (by simp [hdropped, Ne.symm h]), ih]
    · rw [List.filter_cons_of_pos (by simpa using hdropped)]
      by_cases hkey : entry.1 = key
      · rw [List.find?_cons_of_pos (by simpa using hkey), List.find?_cons_of_pos (by simpa using hkey)]
      · rw [List.find?_cons_of_neg (by simpa using hkey), List.find?_cons_of_neg (by simpa using hkey), ih]

theorem header_dropped (headers : List (String × List Char)) (dropped : String) :
    header dropped (headers.filter (·.1 ≠ dropped)) = none := by
  rw [header, List.find?_eq_none.2, Option.map_none]
  intro entry hentry
  simpa using (List.mem_filter.1 hentry).2

theorem header_append (headers : List (String × List Char)) (entry : String × List Char) (key : String) :
    header key (headers ++ [entry]) = (header key headers).or (if entry.1 = key then some entry.2 else none) := by
  rw [header, header, List.find?_append]
  cases headers.find? (·.1 = key) with
  | some found => rfl
  | none =>
    by_cases hkey : entry.1 = key
    · simp [hkey]
    · simp [hkey]

/-- The hint is the slug of the host, whatever hint the request brings. -/
theorem hint_eq (site : SiteSettings) (request : NextRequest) : hint site request = slugFromRequest site request := by
  rw [hint, proxy]
  cases slugFromRequest site request with
  | none => exact header_dropped _ _
  | some slug => rw [header_append, header_dropped, Option.none_or, if_pos rfl]

theorem proxy_passes (site : SiteSettings) (request : NextRequest) {key : String} (h : key ≠ TENANT_HINT_HEADER) :
    header key (proxy site request) = header key request.headers := by
  rw [proxy]
  cases slugFromRequest site request with
  | none => exact header_without _ h
  | some slug => rw [header_append, header_without _ h, if_neg (Ne.symm h), Option.or_none]

theorem afterScheme_link (h : '/' ∉ p) (rest : List Char) : afterScheme (p ++ "://".toList ++ rest) = rest := by
  induction p with
  | nil => rfl
  | cons c p ih =>
    have hstep : afterScheme (c :: (p ++ "://".toList ++ rest)) = afterScheme (p ++ "://".toList ++ rest) := by
      cases p with
      | nil => rw [afterScheme.eq_2]; simp
      | cons d p =>
        rw [afterScheme.eq_2]
        rintro rest' - heq
        rw [List.cons_append, List.cons_append] at heq
        exact h (by simp [(List.cons.inj heq).1])
    rw [List.cons_append, List.cons_append, hstep]
    exact ih fun hin => h (List.mem_cons_of_mem _ hin)

/-- The name in a link, before its port and its path. -/
theorem name_of_link {tail : List Char} (hp : '/' ∉ p) (hname : ∀ c ∈ name, HostChar c)
    (htail : tail = [] ∨ (∃ rest, tail = ':' :: rest) ∨ ∃ rest, tail = '/' :: rest) :
    hostWithoutPort (urlHost (p ++ "://".toList ++ (name ++ tail))) = name := by
  rw [urlHost, afterScheme_link hp, List.takeWhile_append_of_pos fun c hc => by simp [(hname c hc).slash]]
  refine hostWithoutPort_append (fun hin => (hname _ hin).colon rfl) ?_
  rcases htail with rfl | ⟨rest, rfl⟩ | ⟨rest, rfl⟩
  · exact .inl rfl
  · exact .inr ⟨_, List.takeWhile_cons_of_pos (by decide)⟩
  · exact .inl (List.takeWhile_cons_of_neg (by decide))

/-- What a request for a URL is told, by the name of the URL. -/
theorem hint_of_asks (h : Asks request url) (hname : hostWithoutPort (urlHost url) = name)
    (hplain : ∀ c ∈ name, HostChar c) : hint site request = slugFromHost site name := by
  obtain ⟨host, ⟨port, hport, rfl⟩, hheader⟩ := h.host
  have hport' : port = [] ∨ ∃ digits, port = ':' :: digits := hport.imp id fun ⟨digits, heq, _⟩ => ⟨digits, heq⟩
  rw [hint_eq, slugFromRequest, h.path, hheader, hname]
  simp only
  rw [hostWithoutPort_append (fun hin => (hplain _ hin).colon rfl) hport',
    toLowerCase_plain fun c hc => (hplain c hc).lower]

theorem proto_plain {protocol : Option (List Char)} {fallback : List Char} (hfallback : '/' ∉ fallback)
    (h : ∀ p ∈ protocol, '/' ∉ p) : '/' ∉ orElse (protocol.map dropColon) fallback := by
  cases protocol with
  | none => exact hfallback
  | some p =>
    rw [Option.map_some, orElse]
    split
    · exact hfallback
    · intro hin
      rw [dropColon] at hin
      split at hin
      · exact h p rfl (List.dropLast_subset _ hin)
      · exact h p rfl hin

/-- The name in the link of a slug. -/
def linkName (site : SiteSettings) (slug : List Char) (options : LinkOptions) : List Char :=
  if isLocal site options then slug ++ dotLocalhost else slug ++ '.' :: storefrontRootDomain site

theorem localhost_plain : ∀ c ∈ dotLocalhost, HostChar c := by
  intro c hc
  rcases List.mem_cons.1 (show c ∈ '.' :: "localhost".toList from hc) with rfl | hc
  · exact ⟨by decide, by decide, by decide, by decide, by decide⟩
  · exact (slug_plain isSlug_localhost hc).1

theorem linkName_plain (hroot : HostName (storefrontRootDomain site)) (h : isSlug slug = true) :
    ∀ c ∈ linkName site slug options, HostChar c := by
  intro c hc
  rw [linkName] at hc
  split at hc
  · rcases List.mem_append.1 hc with hc | hc
    · exact (slug_plain h hc).1
    · exact localhost_plain c hc
  · rcases List.mem_append.1 hc with hc | hc
    · exact (slug_plain h hc).1
    · rcases List.mem_cons.1 hc with rfl | hc
      · exact localhost_plain '.' List.mem_cons_self
      · exact storefrontRootDomain_plain hroot c hc

theorem name_of_storefront (hroot : HostName (storefrontRootDomain site)) (h : isSlug slug = true)
    (hproto : ∀ protocol ∈ options.protocol, '/' ∉ protocol) :
    hostWithoutPort (urlHost (buildStorefrontUrl site slug options)) = linkName site slug options := by
  have hplain : ∀ c ∈ linkName site slug options, HostChar c := linkName_plain hroot h
  cases hlocal : isLocal site options with
  | true =>
    have hlink : buildStorefrontUrl site slug options = orElse (options.protocol.map dropColon) "http".toList ++
        "://".toList ++ (linkName site slug options ++ portSuffix (rawHost options.host)) := by
      rw [buildStorefrontUrl, if_pos hlocal, linkName, if_pos hlocal]
      simp
    rw [hlink]
    exact name_of_link (proto_plain (by simp) hproto) hplain
      ((portSuffix_cases _).imp id .inl)
  | false =>
    have hlink : buildStorefrontUrl site slug options = orElse (options.protocol.map dropColon) "https".toList ++
        "://".toList ++ (linkName site slug options ++ []) := by
      rw [buildStorefrontUrl, if_neg (by simp [hlocal]), linkName, if_neg (by simp [hlocal])]
      simp
    rw [hlink]
    exact name_of_link (proto_plain (by simp) hproto) hplain (.inl rfl)

theorem slugFromHost_link (hroot : HostName (storefrontRootDomain site)) (h : isSlug slug = true) :
    slugFromHost site (linkName site slug options) = some slug ↔ Reached site options := by
  cases hlocal : isLocal site options with
  | true => simp [linkName, Reached, hlocal, slugFromHost_local h]
  | false => simp [linkName, Reached, hlocal, slugFromHost_root hroot (storefrontRootDomain_eq hlocal) h]

theorem hint_of_storefront (hroot : HostName (storefrontRootDomain site)) (h : isSlug slug = true)
    (hproto : ∀ protocol ∈ options.protocol, '/' ∉ protocol)
    (hasks : Asks request (buildStorefrontUrl site slug options)) : hint site request = slugFromHost site (linkName site slug options) :=
  hint_of_asks hasks (name_of_storefront hroot h hproto) (linkName_plain hroot h)

/-! ## The way back -/

theorem rawHost_plain (h : ∀ c ∈ name, c ≠ ',' ∧ Text.isSpace c = false) : rawHost (some name) = name := by
  rw [rawHost, Option.map_some, List.splitOn_eq_singleton fun hin => (h _ hin).1 rfl, List.headD_cons,
    trim_plain fun c hc => (h c hc).2, orElse]
  split
  · rename_i hnil
    exact hnil.symm
  · rfl

theorem dotless_address : ∀ c ∈ "127.0.0.1".toList, ¬ ('a' ≤ c ∧ c ≤ 'z') := by simp

/-- A name below the root domain is not that of the local server. -/
theorem isLocalHost_below (hroot : HostName root) : isLocalHost (slug ++ '.' :: root) = false := by
  obtain ⟨c, hc, hletter⟩ := hroot.letter
  rw [isLocalHost, Bool.or_eq_false_iff, decide_eq_false_iff_not, decide_eq_false_iff_not]
  constructor
  · intro heq
    exact dotless_localhost (heq ▸ List.mem_append_right _ List.mem_cons_self)
  · intro heq
    exact dotless_address c (heq ▸ List.mem_append_right _ (List.mem_cons_of_mem _ hc)) hletter

/-- The link back from a storefront, by its name. -/
theorem buildPublicDirectoryUrl_eq {protocol : Option (List Char)} {window : Option (List Char × List Char)}
    {port : List Char} (hroot : HostName (storefrontRootDomain site)) (h : isSlug slug = true)
    (hport : port = [] ∨ ∃ digits, port = ':' :: digits ∧ ∀ c ∈ digits, c.isDigit = true)
    (hreached : Reached site options) :
    buildPublicDirectoryUrl { host := some (linkName site slug options ++ port), protocol } (some slug) window =
      orElse (some (dropColon (orElse protocol ((window.map Prod.snd).getD [])))) "http".toList ++ "://".toList ++
        ((if isLocal site options then "localhost".toList else storefrontRootDomain site) ++
          (portSuffix (linkName site slug options ++ port) ++ "/".toList)) := by
  have hplain : ∀ c ∈ linkName site slug options, HostChar c := linkName_plain hroot h
  have hdigits : ∀ c ∈ port, c ≠ ',' ∧ Text.isSpace c = false := by
    intro c hc
    rcases hport with rfl | ⟨digits, rfl, hdigits⟩
    · exact nomatch hc
    · rcases List.mem_cons.1 hc with rfl | hc
      · decide
      · refine ⟨?_, Text.not_isSpace_of_digit (hdigits c hc)⟩
        rintro rfl
        exact absurd (hdigits _ hc) (by decide)
  have hne : linkName site slug options ++ port ≠ [] := by
    have hslug := slug_ne_nil h
    rw [linkName]
    split <;> simp [hslug]
  have hraw : rawHost (some (linkName site slug options ++ port)) = linkName site slug options ++ port := by
    refine rawHost_plain fun c hc => ?_
    rcases List.mem_append.1 hc with hc | hc
    · exact ⟨(hplain c hc).comma, (hplain c hc).space⟩
    · exact hdigits c hc
  have hname : hostWithoutPort (linkName site slug options ++ port) = linkName site slug options :=
    hostWithoutPort_append (fun hin => (hplain _ hin).colon rfl) (hport.imp id fun ⟨digits, heq, _⟩ => ⟨digits, heq⟩)
  have hhost : orElse (some (linkName site slug options ++ port)) ((window.map Prod.fst).getD []) =
      linkName site slug options ++ port := by rw [orElse, if_neg hne]
  rw [buildPublicDirectoryUrl]
  simp only [hraw, hhost, hname, if_neg hne]
  cases hlocal : isLocal site options with
  | true =>
    have hbelow : dotLocalhost <:+ linkName site slug options := by
      rw [linkName, if_pos hlocal]
      exact List.suffix_append _ _
    rw [if_pos (.inr hbelow), if_pos rfl]
    simp [List.append_assoc]
  | false =>
    have hlink : linkName site slug options = slug ++ '.' :: storefrontRootDomain site := by simp [linkName, hlocal]
    have hlocalhost : ¬ dotLocalhost <:+ storefrontRootDomain site := hreached.resolve_left (by simp [hlocal])
    have hnot : ¬ (isLocalHost (linkName site slug options) = true ∨ dotLocalhost <:+ linkName site slug options) := by
      rw [hlink, isLocalHost_below hroot, localhost_suffix]
      exact not_or.2 ⟨by simp, not_or.2 ⟨storefrontRootDomain_eq hlocal, hlocalhost⟩⟩
    have hprefixed : (some slug).filter (fun s => decide (s ≠ [] ∧ s ++ ['.'] <+: linkName site slug options)) =
      some slug := by
      rw [Option.filter_some, if_pos]
      refine decide_eq_true ⟨slug_ne_nil h, storefrontRootDomain site, ?_⟩
      rw [hlink]
      simp
    have hdrop : (linkName site slug options).drop (slug.length + 1) = storefrontRootDomain site := by
      rw [hlink]
      simp
    rw [if_neg hnot, hprefixed]
    simp [hdrop, List.append_assoc]

theorem directory_plain (hroot : HostName (storefrontRootDomain site)) :
    ∀ c ∈ if isLocal site options then "localhost".toList else storefrontRootDomain site, HostChar c := by
  intro c hc
  split at hc
  · exact (slug_plain isSlug_localhost hc).1
  · exact storefrontRootDomain_plain hroot c hc

/-- The name of the directory to which a storefront leads back. -/
theorem name_of_directory {protocol : Option (List Char)} {window : Option (List Char × List Char)} {host : List Char}
    (hroot : HostName (storefrontRootDomain site)) (h : isSlug slug = true)
    (hoptions : ∀ p ∈ options.protocol, '/' ∉ p) (hprotocol : ∀ p ∈ protocol, '/' ∉ p)
    (hwindow : ∀ w ∈ window, '/' ∉ w.2)
    (hreached : Reached site options) (hhost : HostOf (buildStorefrontUrl site slug options) host) :
    hostWithoutPort (urlHost (buildPublicDirectoryUrl { host := some host, protocol } (some slug) window)) =
      if isLocal site options then "localhost".toList else storefrontRootDomain site := by
  obtain ⟨port, hport, rfl⟩ := hhost
  rw [name_of_storefront hroot h hoptions, buildPublicDirectoryUrl_eq hroot h hport hreached]
  have hproto : '/' ∉ orElse protocol ((window.map Prod.snd).getD []) := by
    have hfallback : '/' ∉ (window.map Prod.snd).getD [] := by
      cases window with
      | none => simp
      | some w => exact hwindow w rfl
    cases protocol with
    | none => exact hfallback
    | some p =>
      rw [orElse]
      split
      · exact hfallback
      · exact hprotocol p rfl
  have hplain : '/' ∉ orElse ((some (orElse protocol ((window.map Prod.snd).getD []))).map dropColon) "http".toList :=
    proto_plain (by simp) fun p hp => (Option.mem_some.1 hp) ▸ hproto
  refine name_of_link hplain (directory_plain hroot) ?_
  rcases portSuffix_cases (linkName site slug options ++ port) with hnil | ⟨digits, hdigits⟩
  · exact .inr (.inr ⟨[], by rw [hnil]; rfl⟩)
  · exact .inr (.inl ⟨digits ++ "/".toList, by rw [hdigits]; rfl⟩)

theorem storefronts_addressed (site : SiteSettings) (hroot : HostName (storefrontRootDomain site)) :
    Addressed site where
  opens slug options request h hproto hasks := by
    rw [hint_of_storefront hroot h hproto hasks]
    exact slugFromHost_link hroot h
  apart slug slug' options options' request h h' hproto hproto' hreached hreached' hasks hasks' := by
    have hhint : slugFromHost site (linkName site slug options) = slugFromHost site (linkName site slug' options') := by
      rw [← hint_of_storefront hroot h hproto hasks, ← hint_of_storefront hroot h' hproto' hasks']
    rw [(slugFromHost_link hroot h).2 hreached, (slugFromHost_link hroot h').2 hreached'] at hhint
    exact Option.some.inj hhint
  returns slug options host protocol window request h hoptions hprotocol hwindow hreached hhost hasks := by
    have hname := name_of_directory hroot h hoptions hprotocol hwindow hreached hhost
    rw [hint_of_asks hasks hname (directory_plain hroot)]
    refine slugFromHost_directory ?_
    cases hlocal : isLocal site options with
    | true => exact .inr rfl
    | false => exact .inl ⟨rfl, hreached.resolve_left (by simp [hlocal])⟩
  only request slug hpath hhint := by
    rw [hint_eq, slugFromRequest, hpath] at hhint
    cases hheader : (header "x-forwarded-host" request.headers).or (header "host" request.headers) with
    | none => rw [hheader] at hhint; exact nomatch hhint
    | some host =>
      rw [hheader] at hhint
      obtain ⟨hs, part, hpart, hname⟩ := slugFromHost_some hhint
      exact ⟨hs, host, part, rfl, hpart, hname⟩
  trusted request request' hpath hforwarded hhost := by
    rw [hint_eq, hint_eq, slugFromRequest, slugFromRequest, hpath, hforwarded, hhost]
  passed request key hkey := proxy_passes site request hkey

namespace Demo

/-- `NEXT_PUBLIC_SITE_URL=https://komanda.app` -/
def komanda : SiteSettings where
  NEXT_PUBLIC_SITE_URL := some "https://komanda.app".toList
  hostname url := if "https://".toList <+: url then some (url.drop "https://".length) else none

end Demo

open Demo in
/-- The site of the sample environment. -/
theorem storefronts_addressed_komanda : storefrontRootDomain komanda = "komanda.app".toList ∧ Addressed komanda := by
  have hroot : storefrontRootDomain komanda = "komanda.app".toList := by decide +kernel
  refine ⟨hroot, storefronts_addressed komanda ⟨⟨'k', ?_, by decide⟩, ?_⟩⟩
  · rw [hroot]
    simp
  · rw [hroot]
    simp [Text.isSpace]

end Komanda.PublicSite
