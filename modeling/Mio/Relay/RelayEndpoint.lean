import Mio.Library.HostNames
import Mio.Library.Splits

/-!
# The endpoint of the relay

`RelayHttpsEndpoint` of `crates/moe-relay-transport/src/lib.rs`, which reads a URL by hand. An
endpoint is a DNS host name and a port, under the path that is fixed. What is read comes from one
text of the two (`parse_eq_ok_iff`), and the URL that is written again is read back as the same
endpoint (`parse_url`).

The grammar of an endpoint (`IsEndpoint`) has a port of digits only and no address for a host.
`parse` takes the number of a port as Rust reads it, which may have a sign, and refuses an address
only in the form that Rust reads. Elsewhere it reads the grammar (`parse_sound_iff`).
-/

namespace Mio.Relay.RelayEndpoint

open Library

/-- The greatest length of a host name. -/
def maximumDnsNameBytes : ℕ := 253

/-- The one path that is accepted. -/
def desktopLinkPath : String := "/desktop-link"

/-- Why a URL is refused. -/
inductive RelayHttpsEndpointError where
  | httpsRequired
  | invalidAuthority
  | invalidHostname
  | invalidPort
  | invalidPath
  deriving DecidableEq

/-- The host and the port of a relay. -/
structure RelayHttpsEndpoint where
  hostname : String
  port : ℕ
  deriving DecidableEq

/-- The number in a text (`u16::from_str`), which may start with a sign. -/
def parseU16 (text : List Char) : Option ℕ :=
  let digits := if text.head? = some '+' then text.tail else text
  if !digits.isEmpty && digits.all Char.isDigit && Nat.ofDigitChars 10 digits 0 < 2 ^ 16 then
    some (Nat.ofDigitChars 10 digits 0)
  else none

/-- The name has no colon here, so that it is no IPv6 address either. A byte is a character where
the name is ASCII. -/
def isValidDnsHostname (hostname : List Char) : Bool :=
  !hostname.isEmpty && hostname.length ≤ maximumDnsNameBytes &&
    hostname.all (fun c => c.toNat < 128) && !isDottedQuad hostname &&
    (hostname.splitOn '.').all fun label =>
      !label.isEmpty && label.length ≤ 63 && label.all (fun c => c.isAlphanum || c == '-') &&
        label.head?.any Char.isAlphanum && label.getLast?.any Char.isAlphanum

/-- The host name and the port of an authority. -/
def readAuthority (authority : List Char) :
    Except RelayHttpsEndpointError (List Char × ℕ) :=
  match rsplitOnce ':' authority with
  | some (hostname, port) =>
    if hostname.contains ':' then .error .invalidAuthority
    else
      match (parseU16 port).filter (· ≠ 0) with
      | none => .error .invalidPort
      | some port => .ok (hostname, port)
  | none => .ok (authority, 443)

/-- Reads the URL of a relay. -/
def parse (value : String) : Except RelayHttpsEndpointError RelayHttpsEndpoint :=
  match "https://".toList.isPrefixOf? value.toList with
  | none => .error .httpsRequired
  | some remainder =>
    if remainder.any (fun c => c == '?' || c == '#') then .error .invalidPath
    else
      match splitOnce '/' remainder with
      | none => .error .invalidPath
      | some (authority, path) =>
        if path ≠ desktopLinkPath.toList.dropWhile (· == '/') then .error .invalidPath
        else if authority.isEmpty || authority.contains '@' ||
            authority.any (fun c => c == '[' || c == ']') then .error .invalidAuthority
        else
          match readAuthority authority with
          | .error e => .error e
          | .ok (hostname, port) =>
            if !isValidDnsHostname hostname then .error .invalidHostname
            else .ok { hostname := .ofList hostname, port }

/-- The host in the headers of a request. -/
def RelayHttpsEndpoint.hostHeader (endpoint : RelayHttpsEndpoint) : String :=
  if endpoint.port = 443 then endpoint.hostname else s!"{endpoint.hostname}:{endpoint.port}"

/-- The URL of the endpoint, from the header and the path of a request. -/
def RelayHttpsEndpoint.url (endpoint : RelayHttpsEndpoint) : String :=
  s!"https://{endpoint.hostHeader}{desktopLinkPath}"

/-! ## The grammar -/

/-- A host and the text of a port. -/
def authorityText (host : List Char) (port : Option (List Char)) : List Char :=
  host ++ port.elim [] (':' :: ·)

/-- The URL of an authority. -/
def urlText (authority : List Char) : List Char :=
  "https://".toList ++ (authority ++ desktopLinkPath.toList)

/-- The digits are a port. -/
structure IsPortNumber (digits : List Char) : Prop where
  nonempty : digits ≠ []
  allDigits : AllDigits digits
  pos : 0 < Nat.ofDigitChars 10 digits 0
  lt : Nat.ofDigitChars 10 digits 0 < 2 ^ 16

/-- A URL of a DNS host name that is no address, and a port of digits. -/
def IsEndpoint (value : String) : Prop :=
  ∃ host port, value.toList = urlText (authorityText host port) ∧ IsHostName host ∧
    isAddress host = false ∧ ∀ digits ∈ port, IsPortNumber digits

/-- The port that is read from a text of it, if there is one. -/
def readPort : Option (List Char) → Option ℕ
  | none => some 443
  | some text => (parseU16 text).filter (· ≠ 0)

/-- A URL whose host or port is taken for another: the name is an address to a resolver, or the port
has a sign. -/
def Misread (value : String) : Prop :=
  ∃ host port, value.toList = urlText (authorityText host port) ∧
    isValidDnsHostname host = true ∧ (readPort port).isSome = true ∧
    (isAddress host = true ∨ ∃ digits, port = some ('+' :: digits))

/-! ## Host names and ports -/

/-- Where a label has a character, the checks of its ends are those of the grammar. -/
theorem isLabel_iff {label : List Char} :
    (!label.isEmpty && decide (label.length ≤ 63) &&
        label.all (fun c => c.isAlphanum || c == '-') && label.head?.any Char.isAlphanum &&
        label.getLast?.any Char.isAlphanum) = true ↔ IsLabel label := by
  simp only [Bool.and_eq_true, Bool.not_eq_true', List.isEmpty_eq_false_iff, decide_eq_true_eq,
    List.all_eq_true, Bool.or_eq_true, beq_iff_eq, Option.any_eq_true]
  constructor
  · rintro ⟨⟨⟨⟨hne, hlength⟩, hchars⟩, first, hfirst, hfirst'⟩, last, hlast, hlast'⟩
    refine ⟨hne, hlength, hchars, fun c hc => ?_, fun c hc => ?_⟩
    · rw [Option.mem_def, hfirst, Option.some.injEq] at hc
      exact hc ▸ hfirst'
    · rw [Option.mem_def, hlast, Option.some.injEq] at hc
      exact hc ▸ hlast'
  · intro h
    have hfirst := List.head?_eq_some_head h.nonempty
    have hlast := List.getLast?_eq_some_getLast h.nonempty
    exact ⟨⟨⟨⟨h.nonempty, h.length_le⟩, h.chars⟩, _, hfirst, h.first _ hfirst⟩, _, hlast,
      h.last _ hlast⟩

/-- A letter or digit is ASCII. -/
theorem toNat_lt_of_isAlphanum {c : Char} (h : c.isAlphanum = true) : c.toNat < 128 := by
  obtain ⟨-, hhigh⟩ | ⟨-, hhigh⟩ | ⟨-, hhigh⟩ := alphanum_bounds h
  · exact Nat.lt_of_le_of_lt hhigh (by decide)
  · exact Nat.lt_of_le_of_lt hhigh (by decide)
  · exact Nat.lt_of_le_of_lt hhigh (by decide)

/-- A name has no other characters than its labels and the dots between them. -/
theorem hostName_chars {host : List Char} (h : IsHostName host) {c : Char} (hc : c ∈ host) :
    c.isAlphanum = true ∨ c = '-' ∨ c = '.' := by
  have hparts : ['.'].intercalate (host.splitOn '.') = host := List.intercalate_splitOn '.'
  rw [← hparts] at hc
  obtain hdot | ⟨label, hlabel, hmem⟩ := Semver.mem_intercalate hc
  · exact .inr (.inr hdot)
  · rcases (h.labels label hlabel).chars c hmem with halnum | hhyphen
    · exact .inl halnum
    · exact .inr (.inl hhyphen)

/-- The accepted hosts are the host names that are no dotted quads. -/
theorem isValidDnsHostname_iff {host : List Char} :
    isValidDnsHostname host = true ↔ IsHostName host ∧ isDottedQuad host = false := by
  have hbytes : maximumDnsNameBytes = 253 := rfl
  unfold isValidDnsHostname
  rw [Bool.and_eq_true, Bool.and_eq_true, Bool.and_eq_true, Bool.and_eq_true, Bool.not_eq_true',
    List.isEmpty_eq_false_iff, decide_eq_true_iff, List.all_eq_true, Bool.not_eq_true',
    List.all_eq_true, hbytes]
  constructor
  · rintro ⟨⟨⟨⟨hne, hlength⟩, -⟩, hquad⟩, hlabels⟩
    exact ⟨⟨hne, hlength, fun label hlabel => isLabel_iff.mp (hlabels label hlabel)⟩, hquad⟩
  · rintro ⟨hhost, hquad⟩
    refine ⟨⟨⟨⟨hhost.nonempty, hhost.length_le⟩, fun c hc => decide_eq_true ?_⟩, hquad⟩,
      fun label hlabel => isLabel_iff.mpr (hhost.labels label hlabel)⟩
    rcases hostName_chars hhost hc with halnum | rfl | rfl
    · exact toNat_lt_of_isAlphanum halnum
    · decide
    · decide

/-- Digits of a number that fits are read as it. -/
theorem parseU16_of_digits {digits : List Char} (hne : digits ≠ []) (hdigits : AllDigits digits)
    (hlt : Nat.ofDigitChars 10 digits 0 < 2 ^ 16) :
    parseU16 digits = some (Nat.ofDigitChars 10 digits 0) := by
  have hsign : digits.head? ≠ some '+' := by
    intro hhead
    exact absurd (hdigits '+' (List.mem_of_mem_head? hhead)) (by decide)
  have hempty : digits.isEmpty = false := by simpa using hne
  unfold parseU16
  dsimp only
  rw [if_neg hsign, hempty, List.all_eq_true.mpr hdigits, decide_eq_true hlt]
  rfl

/-- A number has digits, which may come after a sign. -/
theorem parseU16_cases {text : List Char} {n : ℕ} (h : parseU16 text = some n) :
    ∃ digits, (text = digits ∨ text = '+' :: digits) ∧ digits ≠ [] ∧ AllDigits digits ∧
      Nat.ofDigitChars 10 digits 0 = n ∧ n < 2 ^ 16 := by
  unfold parseU16 at h
  extract_lets digits at h
  split_ifs at h with hchecked
  obtain rfl := Option.some.inj h
  rw [Bool.and_eq_true, Bool.and_eq_true, Bool.not_eq_true', List.isEmpty_eq_false_iff,
    List.all_eq_true, decide_eq_true_iff] at hchecked
  obtain ⟨⟨hne, hdigits⟩, hlt⟩ := hchecked
  refine ⟨digits, ?_, hne, hdigits, rfl, hlt⟩
  by_cases hsign : text.head? = some '+'
  · have htail : digits = text.tail := if_pos hsign
    rw [htail]
    exact .inr (List.eq_cons_of_mem_head? hsign)
  · exact .inl (if_neg hsign).symm

/-- What is read as a number has only digits, and perhaps a plus. -/
theorem parseU16_chars {text : List Char} {n : ℕ} (h : parseU16 text = some n) {c : Char}
    (hc : c ∈ text) : c.isDigit = true ∨ c = '+' := by
  obtain ⟨digits, htext, -, hdigits, -⟩ := parseU16_cases h
  rcases htext with rfl | rfl
  · exact .inl (hdigits c hc)
  · rcases List.mem_cons.mp hc with rfl | hc
    · exact .inr rfl
    · exact .inl (hdigits c hc)

/-- A port that is read is not zero. -/
theorem readPort_some {text : List Char} {n : ℕ} :
    readPort (some text) = some n ↔ parseU16 text = some n ∧ n ≠ 0 := by
  rw [readPort, Option.filter_eq_some_iff, decide_eq_true_iff]

/-! ## What is read -/

/-- An authority that is read is a host without colons and perhaps a port. -/
theorem readAuthority_eq_ok_iff {authority host : List Char} {n : ℕ} :
    readAuthority authority = .ok (host, n) ↔
      ∃ port, authority = authorityText host port ∧ ':' ∉ host ∧ readPort port = some n := by
  constructor
  · intro h
    unfold readAuthority at h
    split at h
    · next hostname text hsplit =>
      obtain ⟨rfl, -⟩ := rsplitOnce_eq_some.mp hsplit
      split_ifs at h with hcolon
      split at h
      · cases h
      · next port hport =>
        obtain ⟨rfl, rfl⟩ := Prod.mk.inj (Except.ok.inj h)
        exact ⟨some text, rfl, by simpa using hcolon, hport⟩
    · next hsplit =>
      obtain ⟨rfl, rfl⟩ := Prod.mk.inj (Except.ok.inj h)
      exact ⟨none, (List.append_nil authority).symm, rsplitOnce_eq_none.mp hsplit, rfl⟩
  -- The host has no colon and the port is of digits, so the last colon is the one before the port.
  · rintro ⟨port, rfl, hhost, hport⟩
    have hcolon : host.contains ':' = false := by simpa using hhost
    unfold readAuthority
    cases port with
    | none =>
      have hsplit : rsplitOnce ':' (authorityText host none) = none := by
        rw [authorityText, Option.elim_none, List.append_nil]
        exact rsplitOnce_eq_none.mpr hhost
      obtain rfl : 443 = n := Option.some.inj hport
      rw [hsplit, authorityText, Option.elim_none, List.append_nil]
    | some text =>
      have htext : ':' ∉ text := by
        intro hcolon'
        exact absurd (parseU16_chars (readPort_some.mp hport).1 hcolon') (by decide)
      have hsplit : rsplitOnce ':' (authorityText host (some text)) = some (host, text) :=
        rsplitOnce_eq_some.mpr ⟨rfl, htext⟩
      have hport' : (parseU16 text).filter (· ≠ 0) = some n := hport
      rw [hsplit]
      dsimp only
      rw [hcolon, if_neg Bool.false_ne_true, hport']

/-- No other character is in an authority that is read. -/
theorem authority_chars {host : List Char} {port : Option (List Char)} {n : ℕ}
    (hhost : IsHostName host) (hport : readPort port = some n) {c : Char}
    (hc : c ∈ authorityText host port) : c.isAlphanum = true ∨ c ∈ ['-', '.', ':', '+'] := by
  rw [authorityText, List.mem_append] at hc
  rcases hc with hc | hc
  · rcases hostName_chars hhost hc with halnum | rfl | rfl
    · exact .inl halnum
    · exact .inr (by decide)
    · exact .inr (by decide)
  · cases port with
    | none => exact absurd hc List.not_mem_nil
    | some text =>
      rcases List.mem_cons.mp hc with rfl | hc
      · exact .inr (by decide)
      · rcases parseU16_chars (readPort_some.mp hport).1 hc with hdigit | rfl
        · exact .inl (by rw [Char.isAlphanum, hdigit, Bool.or_true])
        · exact .inr (by decide)

/-- The path is a slash and what is compared, which has no query and no fragment. -/
theorem desktopLinkPath_parts : ∃ link, desktopLinkPath.toList.dropWhile (· == '/') = link ∧
    desktopLinkPath.toList = '/' :: link ∧ link.any (fun c => c == '?' || c == '#') = false :=
  ⟨_, rfl, by decide, by decide⟩

/-- A text without both characters has neither. -/
theorem any_either_eq_false {text : List Char} {a b : Char} (ha : a ∉ text) (hb : b ∉ text) :
    text.any (fun c => c == a || c == b) = false := by
  rw [List.any_eq_false]
  intro c hc
  rw [Bool.or_eq_true, beq_iff_eq, beq_iff_eq, not_or]
  exact ⟨fun h => ha (h ▸ hc), fun h => hb (h ▸ hc)⟩

/-- What is read is one text of a host and a port. -/
theorem parse_eq_ok_iff {value : String} {endpoint : RelayHttpsEndpoint} :
    parse value = .ok endpoint ↔ ∃ host port, value.toList = urlText (authorityText host port) ∧
      isValidDnsHostname host = true ∧ readPort port = some endpoint.port ∧
      endpoint.hostname = .ofList host := by
  obtain ⟨link, hdrop, hlink, hmarksLink⟩ := desktopLinkPath_parts
  unfold parse urlText
  rw [hdrop, hlink]
  generalize "https://".toList = scheme
  constructor
  · intro h
    split at h
    · cases h
    next remainder hscheme =>
    split_ifs at h with hmarks
    split at h
    · cases h
    next authority path hsplit =>
    split_ifs at h with hpath hauthority
    split at h
    · cases h
    next hostname n hread =>
    split_ifs at h with hvalid
    obtain ⟨rfl, -⟩ := splitOnce_eq_some.mp hsplit
    obtain ⟨port, rfl, -, hport⟩ := readAuthority_eq_ok_iff.mp hread
    obtain rfl := Except.ok.inj h
    rw [not_not] at hpath
    rw [Bool.not_eq_true', Bool.not_eq_false] at hvalid
    refine ⟨hostname, port, ?_, hvalid, hport, rfl⟩
    rw [← List.isPrefixOf?_eq_some_iff_append_eq.mp hscheme, hpath]
  · rintro ⟨host, port, hvalue, hvalid, hport, hhostname⟩
    have hhost := (isValidDnsHostname_iff.mp hvalid).1
    -- None of the marks that would split the text elsewhere is in the authority.
    have hchars (mark : Char) (hmark : ¬(mark.isAlphanum = true ∨ mark ∈ ['-', '.', ':', '+'])) :
        mark ∉ authorityText host port :=
      fun hmem => hmark (authority_chars hhost hport hmem)
    have hcolon : ':' ∉ host := fun hmem =>
      absurd (hostName_chars hhost hmem) (by decide)
    have hscheme : scheme.isPrefixOf? value.toList =
      some (authorityText host port ++ '/' :: link) :=
      List.isPrefixOf?_eq_some_iff_append_eq.mpr hvalue.symm
    have hmarks : (authorityText host port ++ '/' :: link).any (fun c => c == '?' || c == '#') =
        false := by
      rw [List.any_append, List.any_cons, hmarksLink,
        any_either_eq_false (hchars '?' (by decide)) (hchars '#' (by decide))]
      rfl
    have hsplit := splitOnce_append (hchars '/' (by decide)) link
    have hread := readAuthority_eq_ok_iff.mpr ⟨port, rfl, hcolon, hport⟩
    have hempty : (authorityText host port).isEmpty = false := by
      rw [List.isEmpty_eq_false_iff, authorityText, ne_eq, List.append_eq_nil_iff]
      exact fun h => hhost.nonempty h.1
    have hat : (authorityText host port).contains '@' = false := by
      simpa using hchars '@' (by decide)
    have hbrackets : (authorityText host port).any (fun c => c == '[' || c == ']') = false :=
      any_either_eq_false (hchars '[' (by decide)) (hchars ']' (by decide))
    rw [hscheme]
    dsimp only
    rw [hmarks, if_neg Bool.false_ne_true, hsplit]
    dsimp only
    rw [hempty, hat, hbrackets, hread]
    dsimp only
    rw [hvalid, if_neg (not_not_intro rfl), ← hhostname]
    rfl

/-- The port is the numeral that is written for it. -/
theorem readPort_toString {port : ℕ} (hlt : port < 2 ^ 16) (hne : port ≠ 0) :
    readPort (some (toString port).toList) = some port := by
  have hdigits : (toString port).toList = Nat.toDigits 10 port := Nat.toList_repr
  have hall : AllDigits (Nat.toDigits 10 port) := by
    have hdigit : ∀ d < 10, d.digitChar.isDigit = true := by decide
    intro c hc
    obtain ⟨d, hd, rfl⟩ := mem_toDigits (by decide) hc
    exact hdigit d hd
  have hvalue : Nat.ofDigitChars 10 (Nat.toDigits 10 port) 0 = port := Nat.ofDigitChars_ten_toDigits
  have hparsed := parseU16_of_digits (Nat.toDigits_ne_nil) hall (by rw [hvalue]; exact hlt)
  rw [hvalue] at hparsed
  rw [hdigits]
  exact readPort_some.mpr ⟨hparsed, hne⟩

/-- A port that is read is a port number. -/
theorem readPort_bounds {port : Option (List Char)} {n : ℕ} (h : readPort port = some n) :
    n < 2 ^ 16 ∧ n ≠ 0 := by
  cases port with
  | none =>
    obtain rfl : 443 = n := Option.some.inj h
    decide
  | some text =>
    obtain ⟨hparsed, hne⟩ := readPort_some.mp h
    obtain ⟨digits, -, -, -, -, hlt⟩ := parseU16_cases hparsed
    exact ⟨hlt, hne⟩

/-- The URL that is written of an endpoint is read as the same one. -/
theorem parse_url {value : String} {endpoint : RelayHttpsEndpoint}
    (h : parse value = .ok endpoint) : parse endpoint.url = .ok endpoint := by
  obtain ⟨host, port, -, hvalid, hport, hhostname⟩ := parse_eq_ok_iff.mp h
  obtain ⟨hlt, hne⟩ := readPort_bounds hport
  have hhost : endpoint.hostname.toList = host := by rw [hhostname, String.toList_ofList]
  rw [parse_eq_ok_iff]
  by_cases hdefault : endpoint.port = 443
  · refine ⟨host, none, ?_, hvalid, by rw [hdefault]; rfl, hhostname⟩
    unfold RelayHttpsEndpoint.url RelayHttpsEndpoint.hostHeader
    rw [if_pos hdefault]
    unfold urlText authorityText
    simp only [toString, String.toList_append, hhost, Option.elim_none, List.append_nil,
      List.append_assoc]
  · refine ⟨host, some (toString endpoint.port).toList, ?_, hvalid, readPort_toString hlt hne,
      hhostname⟩
    unfold RelayHttpsEndpoint.url RelayHttpsEndpoint.hostHeader
    rw [if_neg hdefault]
    generalize toString endpoint.port = digits
    unfold urlText authorityText
    simp only [toString, String.toList_append, hhost, Option.elim_some, List.append_assoc]
    rfl

/-! ## The grammar and what is read -/

/-- The text of a URL has one host and one port. -/
theorem urlText_inj {host host' : List Char} {port port' : Option (List Char)} (hhost : ':' ∉ host)
    (hhost' : ':' ∉ host')
    (h : urlText (authorityText host port) = urlText (authorityText host' port')) :
    host = host' ∧ port = port' := by
  have hsame := List.append_cancel_right (List.append_cancel_left h)
  unfold authorityText at hsame
  cases port with
  | none =>
    cases port' with
    | none =>
      rw [Option.elim_none, List.append_nil, List.append_nil] at hsame
      exact ⟨hsame, rfl⟩
    | some text' =>
      rw [Option.elim_none, List.append_nil] at hsame
      exact absurd (hsame ▸ List.mem_append_right host' List.mem_cons_self) hhost
  | some text =>
    cases port' with
    | none =>
      rw [Option.elim_none, List.append_nil] at hsame
      exact absurd (hsame ▸ List.mem_append_right host List.mem_cons_self) hhost'
    | some text' =>
      have hsplit := splitOnce_append hhost text
      rw [Option.elim_some, Option.elim_some] at hsame
      rw [hsame, splitOnce_append hhost' text'] at hsplit
      obtain ⟨rfl, rfl⟩ := Prod.mk.inj (Option.some.inj hsplit)
      exact ⟨rfl, rfl⟩

/-- A host name has no colon. -/
theorem notMem_of_isHostName {host : List Char} (h : IsHostName host) : ':' ∉ host :=
  fun hmem => absurd (hostName_chars h hmem) (by decide)

/-- Some endpoint is read where the host name is one to Rust and the port is a number to it. -/
theorem exists_parse_iff {value : String} :
    (∃ endpoint, parse value = .ok endpoint) ↔
      ∃ host port, value.toList = urlText (authorityText host port) ∧
        isValidDnsHostname host = true ∧ (readPort port).isSome = true := by
  constructor
  · rintro ⟨endpoint, h⟩
    obtain ⟨host, port, hvalue, hvalid, hport, -⟩ := parse_eq_ok_iff.mp h
    exact ⟨host, port, hvalue, hvalid, by rw [hport]; rfl⟩
  · rintro ⟨host, port, hvalue, hvalid, hsome⟩
    obtain ⟨n, hport⟩ := Option.isSome_iff_exists.mp hsome
    exact ⟨⟨.ofList host, n⟩, parse_eq_ok_iff.mpr ⟨host, port, hvalue, hvalid, hport, rfl⟩⟩

/-- A port of digits is read. -/
theorem readPort_isSome {port : Option (List Char)} (h : ∀ digits ∈ port, IsPortNumber digits) :
    (readPort port).isSome = true := by
  cases port with
  | none => rfl
  | some digits =>
    have hnumber := h digits rfl
    have hparsed := parseU16_of_digits hnumber.nonempty hnumber.allDigits hnumber.lt
    have hport := readPort_some.mpr ⟨hparsed, Nat.pos_iff_ne_zero.mp hnumber.pos⟩
    rw [hport]
    rfl

/-- A port that is read has a sign or is one of digits. -/
theorem isPortNumber_of_readPort {port : Option (List Char)} (h : (readPort port).isSome = true)
    (hsign : ¬∃ digits, port = some ('+' :: digits)) : ∀ digits ∈ port, IsPortNumber digits := by
  rintro text rfl
  obtain ⟨n, hport⟩ := Option.isSome_iff_exists.mp h
  obtain ⟨hparsed, hne⟩ := readPort_some.mp hport
  obtain ⟨digits, htext, hnonempty, hdigits, rfl, hlt⟩ := parseU16_cases hparsed
  rcases htext with rfl | rfl
  · exact ⟨hnonempty, hdigits, Nat.pos_of_ne_zero hne, hlt⟩
  · exact absurd ⟨digits, rfl⟩ hsign

/-- Everything in the grammar is read. -/
theorem exists_parse_of_isEndpoint {value : String} (h : IsEndpoint value) :
    ∃ endpoint, parse value = .ok endpoint := by
  obtain ⟨host, port, hvalue, hhost, haddress, hport⟩ := h
  have hquad : isDottedQuad host = false := by
    by_contra hquad
    rw [isAddress_of_isDottedQuad (Bool.eq_true_of_not_eq_false hquad)] at haddress
    cases haddress
  exact exists_parse_iff.mpr
    ⟨host, port, hvalue, isValidDnsHostname_iff.mpr ⟨hhost, hquad⟩, readPort_isSome hport⟩

/-- What is misread is read, and is not in the grammar. -/
theorem misread_iff {value : String} :
    Misread value ↔ (∃ endpoint, parse value = .ok endpoint) ∧ ¬IsEndpoint value := by
  constructor
  · rintro ⟨host, port, hvalue, hvalid, hport, hwrong⟩
    refine ⟨exists_parse_iff.mpr ⟨host, port, hvalue, hvalid, hport⟩, ?_⟩
    rintro ⟨host', port', hvalue', hhost', haddress, hnumber⟩
    have hhost := (isValidDnsHostname_iff.mp hvalid).1
    rw [hvalue] at hvalue'
    obtain ⟨rfl, rfl⟩ :=
      urlText_inj (notMem_of_isHostName hhost) (notMem_of_isHostName hhost') hvalue'
    rcases hwrong with hliteral | ⟨digits, rfl⟩
    · rw [haddress] at hliteral
      cases hliteral
    · exact absurd ((hnumber _ rfl).allDigits '+' List.mem_cons_self) (by decide)
  · rintro ⟨hread, hnot⟩
    obtain ⟨host, port, hvalue, hvalid, hport⟩ := exists_parse_iff.mp hread
    refine ⟨host, port, hvalue, hvalid, hport, ?_⟩
    by_contra hright
    rw [not_or, Bool.not_eq_true] at hright
    exact hnot ⟨host, port, hvalue, (isValidDnsHostname_iff.mp hvalid).1, hright.1,
      isPortNumber_of_readPort hport hright.2⟩

/-- The URLs of the grammar are read, and what is read is written as it was, exactly where the host
or the port is not taken for another. -/
theorem parse_sound_iff (value : String) :
    (((∃ endpoint, parse value = .ok endpoint) ↔ IsEndpoint value) ∧
        ∀ endpoint, parse value = .ok endpoint → parse endpoint.url = .ok endpoint) ↔
      ¬Misread value := by
  rw [misread_iff]
  constructor
  · rintro ⟨hiff, -⟩ ⟨hread, hnot⟩
    exact hnot (hiff.mp hread)
  · intro hright
    refine ⟨⟨fun hread => ?_, exists_parse_of_isEndpoint⟩, fun endpoint h => parse_url h⟩
    by_contra hnot
    exact hright ⟨hread, hnot⟩

/-- A short form of a loopback address is taken for a name, and a port may have a sign. -/
theorem misread_urls :
    ¬((∃ endpoint, parse "https://127.1/desktop-link" = .ok endpoint) ↔
        IsEndpoint "https://127.1/desktop-link") ∧
      ¬((∃ endpoint, parse "https://relay.example.com:+443/desktop-link" = .ok endpoint) ↔
        IsEndpoint "https://relay.example.com:+443/desktop-link") := by
  have haddress : Misread "https://127.1/desktop-link" :=
    ⟨"127.1".toList, none, by decide, by decide, rfl, .inl (by decide)⟩
  have hsign : Misread "https://relay.example.com:+443/desktop-link" :=
    ⟨"relay.example.com".toList, some "+443".toList, by decide, by decide, by decide,
      .inr ⟨"443".toList, by decide⟩⟩
  obtain ⟨hread, hnot⟩ := misread_iff.mp haddress
  obtain ⟨hread', hnot'⟩ := misread_iff.mp hsign
  exact ⟨fun h => hnot (h.mp hread), fun h => hnot' (h.mp hread')⟩

end Mio.Relay.RelayEndpoint
