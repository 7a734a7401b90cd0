import Mathlib.Data.List.Infix
import Mio.Desktop.BrowserBridgeHttp

/-!
# What the bridge reads as a request

A header arrives with the chunk in which its end is (`HeaderArrives`). The body is what the header
declares, unless the declared length and the header together are over the numbers of the machine.
There the sum overflows, and the thread of the bridge panics (`readRequest_total_iff`).
-/

namespace Mio.Desktop.BrowserBridgeHttp

open Library

/-! ## The header in the stream -/

/-- The bytes up to the first terminator. -/
def FirstHeader (received header : Bytes) : Prop :=
  header ++ terminator <+: received ∧
    ∀ other, other ++ terminator <+: received → header.length ≤ other.length

/-- No empty line has come yet. -/
def Unterminated (received : Bytes) : Prop := ∀ other, ¬other ++ terminator <+: received

/-- The header ends in a chunk of the stream, and what comes before that chunk is within the limit.
-/
def HeaderArrives (stream : List Chunk) (header : Bytes) : Prop :=
  ∃ front last rest, stream = front ++ last :: rest ∧
    (bytesOf front).length ≤ maximumHttpBytes ∧ Unterminated (bytesOf front) ∧
    FirstHeader (bytesOf front ++ last.val) header

/-- The header declares a length whose end is no number of the machine. -/
def Oversized (stream : List Chunk) : Prop :=
  ∃ header text method path headers length, HeaderArrives stream header ∧
    utf8Text header = some text ∧ parseHead text = some (method, path, headers) ∧
    contentLength headers = some length ∧ 2 ^ 64 ≤ header.length + 4 + length

variable {received header : Bytes} {stream : List Chunk}

/-- The test at the first byte, as a prefix. -/
theorem isPrefixOf_terminator : terminator.isPrefixOf received = true ↔
    [] ++ terminator <+: received := by
  rw [List.nil_append, List.isPrefixOf_iff_prefix]

/-- A terminator that does not come first comes after the first byte. -/
theorem cons_of_prefix {byte : UInt8} {other : Bytes}
    (hfirst : ¬[] ++ terminator <+: byte :: received)
    (h : other ++ terminator <+: byte :: received) :
    ∃ tail, other = byte :: tail ∧ tail ++ terminator <+: received := by
  cases other with
  | nil => exact absurd h hfirst
  | cons head tail =>
    rw [List.cons_append, List.cons_prefix_cons] at h
    exact ⟨tail, by rw [h.1], h.2⟩

/-- When no end is found, none has come. -/
theorem findHeaderEnd_none (h : findHeaderEnd received = none) : Unterminated received := by
  induction received with
  | nil =>
    intro other hprefix
    have hlength := hprefix.length_le
    rw [List.length_append] at hlength
    exact absurd hlength (by simp [terminator])
  | cons byte received ih =>
    unfold findHeaderEnd at h
    split at h
    · cases h
    next hfirst =>
    intro other hprefix
    obtain ⟨tail, -, htail⟩ := cons_of_prefix (mt isPrefixOf_terminator.mpr hfirst) hprefix
    exact ih (Option.map_eq_none_iff.mp h) tail htail

/-- The end that is found is the first one. -/
theorem findHeaderEnd_some {index : ℕ} (h : findHeaderEnd received = some index) :
    ∃ header, header.length = index ∧ FirstHeader received header := by
  induction received generalizing index with
  | nil => cases h
  | cons byte received ih =>
    unfold findHeaderEnd at h
    split at h
    · next hfirst =>
      obtain rfl := Option.some_inj.mp h
      exact ⟨[], rfl, isPrefixOf_terminator.mp hfirst, fun _ _ => Nat.zero_le _⟩
    · next hfirst =>
      obtain ⟨rest, hrest, rfl⟩ := Option.map_eq_some_iff.mp h
      obtain ⟨header, rfl, hprefix, hleast⟩ := ih hrest
      refine ⟨byte :: header, rfl, List.cons_prefix_cons.mpr ⟨rfl, hprefix⟩, fun other hother => ?_⟩
      obtain ⟨tail, rfl, htail⟩ := cons_of_prefix (mt isPrefixOf_terminator.mpr hfirst) hother
      exact Nat.succ_le_succ (hleast tail htail)

/-- The header is the one whose end is found. -/
theorem FirstHeader.findHeaderEnd_eq (h : FirstHeader received header) :
    findHeaderEnd received = some header.length := by
  cases hfind : findHeaderEnd received with
  | none => exact absurd h.1 (findHeaderEnd_none hfind header)
  | some index =>
    obtain ⟨other, rfl, hprefix, hleast⟩ := findHeaderEnd_some hfind
    rw [Nat.le_antisymm (hleast header h.1) (h.2 other hprefix)]

/-- Before the empty line came, no end is found. -/
theorem Unterminated.findHeaderEnd_eq (h : Unterminated received) :
    findHeaderEnd received = none := by
  cases hfind : findHeaderEnd received with
  | none => rfl
  | some index =>
    obtain ⟨other, -, hprefix, -⟩ := findHeaderEnd_some hfind
    exact absurd hprefix (h other)

/-! ## The loops -/

/-- What the first loop has, when it has found the end of the header. -/
theorem receiveHeader_some {buffer buffer' : Bytes} {index : ℕ} {rest : List Chunk}
    (hbuffer : Unterminated buffer)
    (h : receiveHeader buffer stream = some (index, buffer', rest)) :
    ∃ front last, stream = front ++ last :: rest ∧
      (buffer ++ bytesOf front).length ≤ maximumHttpBytes ∧ Unterminated (buffer ++ bytesOf front) ∧
      buffer' = buffer ++ bytesOf front ++ last.val ∧ findHeaderEnd buffer' = some index := by
  -- By induction on the chunks, until the end of the header is in the buffer.
  induction stream generalizing buffer with
  | nil =>
    unfold receiveHeader at h
    split at h
    · cases h
    · cases h
  | cons chunk stream ih =>
    unfold receiveHeader at h
    split at h
    · cases h
    next hlimit =>
    dsimp only at h
    have hnil : buffer ++ bytesOf [] = buffer := List.append_nil buffer
    split at h
    · next found hfound =>
      obtain ⟨rfl, htail⟩ := Prod.mk.inj (Option.some_inj.mp h)
      obtain ⟨rfl, rfl⟩ := Prod.mk.inj htail
      refine ⟨[], chunk, rfl, ?_, ?_, ?_, hfound⟩
      · rw [hnil]
        exact Nat.le_of_not_lt hlimit
      · rwa [hnil]
      · rw [hnil]
    -- The header goes on, so the buffer with this chunk is unterminated too.
    · next hnone =>
      obtain ⟨front, last, rfl, hlength, hfront, hbuffer', hfound⟩ :=
        ih (findHeaderEnd_none hnone) h
      have happend : buffer ++ bytesOf (chunk :: front) = buffer ++ chunk.val ++ bytesOf front := by
        rw [bytesOf, List.flatMap_cons, List.append_assoc, bytesOf]
      refine ⟨chunk :: front, last, rfl, ?_, ?_, ?_, hfound⟩
      · rwa [happend]
      · rwa [happend]
      · rwa [happend]

/-- The first loop finds the end of a header that arrives. -/
theorem receiveHeader_eq {buffer : Bytes} {front rest : List Chunk} {last : Chunk} {index : ℕ}
    (hlength : (buffer ++ bytesOf front).length ≤ maximumHttpBytes)
    (hfront : Unterminated (buffer ++ bytesOf front))
    (hfound : findHeaderEnd (buffer ++ bytesOf front ++ last.val) = some index) :
    receiveHeader buffer (front ++ last :: rest) =
      some (index, buffer ++ bytesOf front ++ last.val, rest) := by
  induction front generalizing buffer with
  | nil =>
    have hnil : buffer ++ bytesOf [] = buffer := List.append_nil buffer
    rw [hnil] at hlength hfound ⊢
    rw [List.nil_append, receiveHeader, if_neg (Nat.not_lt.mpr hlength), hfound]
  | cons chunk front ih =>
    have happend : buffer ++ bytesOf (chunk :: front) = buffer ++ chunk.val ++ bytesOf front := by
      rw [bytesOf, List.flatMap_cons, List.append_assoc, bytesOf]
    rw [happend] at hlength hfront hfound ⊢
    have hlimit : buffer.length ≤ maximumHttpBytes := by
      rw [List.length_append, List.length_append] at hlength
      omega
    have hchunk : Unterminated (buffer ++ chunk.val) := fun other hother =>
      hfront other (hother.trans (List.prefix_append _ _))
    rw [List.cons_append, receiveHeader, if_neg (Nat.not_lt.mpr hlimit), hchunk.findHeaderEnd_eq]
    exact ih hlength hfront hfound

/-- The second loop has as much as it was asked for, and nothing that was not sent. -/
theorem receiveBody_some {total : ℕ} {buffer buffer' : Bytes}
    (h : receiveBody total buffer stream = some buffer') :
    total ≤ buffer'.length ∧ buffer <+: buffer' ∧ buffer' <+: buffer ++ bytesOf stream := by
  induction stream generalizing buffer with
  | nil =>
    unfold receiveBody at h
    split at h
    · next hle =>
      obtain rfl := Option.some_inj.mp h
      exact ⟨hle, List.prefix_refl _, List.prefix_append _ _⟩
    · cases h
  | cons chunk stream ih =>
    unfold receiveBody at h
    split at h
    · next hle =>
      obtain rfl := Option.some_inj.mp h
      exact ⟨hle, List.prefix_refl _, List.prefix_append _ _⟩
    · obtain ⟨hle, hprefix, hsent⟩ := ih h
      refine ⟨hle, (List.prefix_append _ _).trans hprefix, ?_⟩
      rwa [List.append_assoc] at hsent

/-- A length that is read fits 64 bits. -/
theorem parseUsize_lt {value : String} {number : ℕ} (h : parseUsize value = some number) :
    number < 2 ^ 64 := by
  unfold parseUsize at h
  dsimp only at h
  repeat' split at h
  all_goals cases h
  all_goals assumption

/-- The length that the headers say fits 64 bits. -/
theorem contentLength_lt {headers : String → Option String} {length : ℕ}
    (h : contentLength headers = some length) : length < 2 ^ 64 := by
  unfold contentLength at h
  split at h
  · exact parseUsize_lt h
  · obtain rfl := Option.some_inj.mp h
    decide

/-! ## The body -/

section Body

/-- A step that succeeds only hands its value on. -/
theorem ok_bind {α β : Type} (a : α) (next : α → Except HttpFailure β) :
    (Except.ok a >>= next) = next a := rfl

variable {length : ℕ} {buffer : Bytes} (rest : List Chunk)

/-- A body whose end is a number of the machine is refused, or is read as a whole. -/
theorem readBody_fits (hheader : header ++ terminator <+: buffer)
    (hfits : header.length + 4 + length < 2 ^ 64) (overflowChecks : Bool) :
    readBody overflowChecks header.length length buffer rest = .error .invalid ∨
      ∃ body, readBody overflowChecks header.length length buffer rest = .ok body ∧
        body.length = length ∧ header ++ terminator ++ body <+: buffer ++ bytesOf rest := by
  have hstart : usizeAdd overflowChecks header.length 4 = .ok (header.length + 4) :=
    if_pos (by omega)
  have htotal : usizeAdd overflowChecks (header.length + 4) length =
      .ok (header.length + 4 + length) := if_pos hfits
  rw [readBody, hstart, ok_bind, htotal, ok_bind]
  -- The sum does not overflow, and the request is refused if it is over the limit.
  by_cases hlimit : maximumHttpBytes < header.length + 4 + length
  · rw [if_pos hlimit]
    exact .inl rfl
  rw [if_neg hlimit]
  cases hbody : receiveBody (header.length + 4 + length) buffer rest with
  | none => exact .inl rfl
  | some received =>
    obtain ⟨hle, hprefix, hsent⟩ := receiveBody_some hbody
    have hsize : header.length + 4 + length - (header.length + 4) = length := by omega
    have hslice : slice received (header.length + 4) (header.length + 4 + length) =
        .ok ((received.drop (header.length + 4)).take length) := by
      rw [slice, if_pos ⟨Nat.le_add_right _ _, hle⟩, hsize]
    refine .inr ⟨(received.drop (header.length + 4)).take length, hslice, ?_, ?_⟩
    · rw [List.length_take, List.length_drop]
      omega
    -- The body is taken right behind the header, whatever else was received.
    · have hfront := List.prefix_iff_eq_take.mp (hheader.trans hprefix)
      have hlength : (header ++ terminator).length = header.length + 4 := List.length_append
      rw [hlength] at hfront
      have htake : header ++ terminator ++ (received.drop (header.length + 4)).take length =
          received.take (header.length + 4 + length) := by
        rw [hfront, ← List.take_add]
      rw [htake]
      exact (List.take_prefix _ _).trans hsent

/-- A body whose end is no number of the machine overflows. -/
theorem readBody_overflows (hheader : header ++ terminator <+: buffer)
    (hsmall : header.length + 4 < 2 ^ 64) (hlength : length < 2 ^ 64)
    (hover : 2 ^ 64 ≤ header.length + 4 + length) :
    readBody true header.length length buffer rest = .error .panicked ∧
      (header.length + 4 ≤ maximumHttpBytes →
        readBody false header.length length buffer rest = .error .panicked) := by
  have hstart : ∀ overflowChecks, usizeAdd overflowChecks header.length 4 =
    .ok (header.length + 4) :=
    fun _ => if_pos hsmall
  have htotal : ∀ overflowChecks, usizeAdd overflowChecks (header.length + 4) length =
      if overflowChecks then .error .panicked else .ok ((header.length + 4 + length) % 2 ^ 64) :=
    fun _ => if_neg (Nat.not_lt.mpr hover)
  constructor
  · rw [readBody, hstart, ok_bind, htotal]
    rfl
  · intro hlimited
    -- The sum wraps around to a place before the body.
    have hwrapped : (header.length + 4 + length) % 2 ^ 64 < header.length + 4 := by omega
    have hlimit : ¬maximumHttpBytes < (header.length + 4 + length) % 2 ^ 64 := by omega
    have hreceived : header.length + 4 ≤ buffer.length := by
      have hle := hheader.length_le
      rwa [List.length_append] at hle
    have hbody : receiveBody ((header.length + 4 + length) % 2 ^ 64) buffer rest = some buffer := by
      unfold receiveBody
      rw [if_pos (by omega)]
    rw [readBody, hstart, ok_bind, htotal, if_neg Bool.false_ne_true, ok_bind, if_neg hlimit, hbody]
    exact if_neg fun h => absurd h.1 (Nat.not_le.mpr hwrapped)

end Body

/-! ## The request -/

section Request

variable {front rest : List Chunk} {last : Chunk}

/-- The function does not panic, and the body of a request has the declared length and follows the
terminator of the header. -/
def Reads (overflowChecks : Bool) (stream : List Chunk) : Prop :=
  readRequest overflowChecks stream ≠ .error .panicked ∧
    ∀ request, readRequest overflowChecks stream = .ok request →
      ∃ header, HeaderArrives stream header ∧
        contentLength request.headers = some request.body.length ∧
        header ++ terminator ++ request.body <+: bytesOf stream

/-- A header that arrives is short, since it is within the limit but for the last chunk. -/
theorem header_short (hlength : (bytesOf front).length ≤ maximumHttpBytes)
    (hheader : FirstHeader (bytesOf front ++ last.val) header) : header.length + 4 < 2 ^ 64 := by
  have hsent := hheader.1.length_le
  have hlast := last.property.2
  have hmaximum : maximumHttpBytes = 64000 := rfl
  have hterminator : terminator.length = 4 := rfl
  rw [List.length_append, List.length_append] at hsent
  omega

/-- What is left of the function once the header has arrived. -/
theorem readRequest_eq (hlength : (bytesOf front).length ≤ maximumHttpBytes)
    (hfront : Unterminated (bytesOf front))
    (hheader : FirstHeader (bytesOf front ++ last.val) header)
    (overflowChecks : Bool) :
    readRequest overflowChecks (front ++ last :: rest) = (do
      let text ← orInvalid (utf8Text header)
      let (method, path, headers) ← orInvalid (parseHead text)
      let contentLength ← orInvalid (contentLength headers)
      let body ← readBody overflowChecks header.length contentLength
        (bytesOf front ++ last.val) rest
      return ⟨method, path, headers, body⟩) := by
  have hreceive : receiveHeader [] (front ++ last :: rest) =
      some (header.length, bytesOf front ++ last.val, rest) :=
    receiveHeader_eq hlength hfront hheader.findHeaderEnd_eq
  have hslice : slice (bytesOf front ++ last.val) 0 header.length = .ok header := by
    have hprefix := (List.prefix_append _ _).trans hheader.1
    rw [slice, if_pos ⟨Nat.zero_le _, hprefix.length_le⟩, List.drop_zero, Nat.sub_zero,
      ← List.prefix_iff_eq_take.mp hprefix]
  rw [readRequest, hreceive]
  show (slice (bytesOf front ++ last.val) 0 header.length >>= _) = _
  rw [hslice]
  rfl

/-- What is left once the header is known. -/
theorem readRequest_declared {text method path : String} {headers : String → Option String}
    {length : ℕ} (hlength : (bytesOf front).length ≤ maximumHttpBytes)
    (hfront : Unterminated (bytesOf front))
    (hheader : FirstHeader (bytesOf front ++ last.val) header)
    (htext : utf8Text header = some text) (hhead : parseHead text = some (method, path, headers))
    (hdeclared : contentLength headers = some length) (overflowChecks : Bool) :
    readRequest overflowChecks (front ++ last :: rest) = (do
      let body ← readBody overflowChecks header.length length (bytesOf front ++ last.val) rest
      return ⟨method, path, headers, body⟩) := by
  rw [readRequest_eq hlength hfront hheader, htext]
  show (orInvalid (parseHead text) >>= _) = _
  rw [hhead]
  show (orInvalid (contentLength headers) >>= _) = _
  rw [hdeclared]
  rfl

/-- A request is read or refused, unless its end is no number of the machine. -/
theorem readRequest_fits (hlength : (bytesOf front).length ≤ maximumHttpBytes)
    (hfront : Unterminated (bytesOf front))
    (hheader : FirstHeader (bytesOf front ++ last.val) header)
    (hfits : ¬Oversized (front ++ last :: rest)) (overflowChecks : Bool) :
    Reads overflowChecks (front ++ last :: rest) := by
  have harrives : HeaderArrives (front ++ last :: rest) header :=
    ⟨front, last, rest, rfl, hlength, hfront, hheader⟩
  unfold Reads
  rw [readRequest_eq hlength hfront hheader overflowChecks]
  -- One case for each of the refusals on the way; in all of them there is no request.
  cases htext : utf8Text header with
  | none => exact ⟨nofun, nofun⟩
  | some text =>
    show (orInvalid (parseHead text) >>= _) ≠ _ ∧ ∀ request,
      (orInvalid (parseHead text) >>= _) = _ → _
    cases hhead : parseHead text with
    | none => exact ⟨nofun, nofun⟩
    | some head =>
      obtain ⟨method, path, headers⟩ := head
      show (orInvalid (contentLength headers) >>= _) ≠ _ ∧
        ∀ request, (orInvalid (contentLength headers) >>= _) = _ → _
      cases hdeclared : contentLength headers with
      | none => exact ⟨nofun, nofun⟩
      | some length =>
        -- This is where the size of the request is bounded, so the addition cannot overflow.
        have hsum : header.length + 4 + length < 2 ^ 64 := by
          by_contra hover
          exact hfits ⟨header, text, method, path, headers, length, harrives, htext, hhead,
            hdeclared, Nat.le_of_not_lt hover⟩
        show (readBody overflowChecks header.length length _ rest >>= _) ≠ _ ∧
          ∀ request, (readBody overflowChecks header.length length _ rest >>= _) = _ → _
        have hsent : bytesOf (front ++ last :: rest) = bytesOf front ++
          last.val ++ bytesOf rest := by
          simp [bytesOf]
        -- The body is refused, or it has the declared length and is what was sent after the header.
        obtain hrefused | ⟨body, hbody, hsize, hprefix⟩ :=
          readBody_fits rest hheader.1 hsum overflowChecks
        · rw [hrefused]
          exact ⟨nofun, nofun⟩
        · rw [hbody]
          refine ⟨nofun, fun request hrequest => ?_⟩
          obtain rfl := Except.ok.inj hrequest
          refine ⟨header, harrives, ?_, ?_⟩
          · show contentLength headers = some body.length
            rw [hdeclared, hsize]
          · rwa [hsent]

end Request

/-- In either build, the function reads every stream safely if and only if no header declares a
length whose end is no number of the machine. -/
theorem readRequest_total_iff (stream : List Chunk) :
    (∀ overflowChecks, Reads overflowChecks stream) ↔ ¬Oversized stream := by
  constructor
  · rintro hreads ⟨header, text, method, path, headers, length,
      ⟨front, last, rest, rfl, hlength, hfront, hheader⟩, htext, hhead, hdeclared, hover⟩
    have hpanics := (readBody_overflows rest hheader.1 (header_short hlength hheader)
      (contentLength_lt hdeclared) hover).1
    refine (hreads true).1 ?_
    rw [readRequest_declared hlength hfront hheader htext hhead hdeclared, hpanics]
    rfl
  · intro hfits overflowChecks
    cases hreceive : receiveHeader [] stream with
    | none =>
      have hinvalid : readRequest overflowChecks stream = .error .invalid := by
        rw [readRequest, hreceive]
        rfl
      unfold Reads
      rw [hinvalid]
      exact ⟨nofun, nofun⟩
    | some found =>
      obtain ⟨index, buffer, rest⟩ := found
      have hempty : Unterminated [] := findHeaderEnd_none rfl
      obtain ⟨front, last, rfl, hlength, hfront, rfl, hfound⟩ := receiveHeader_some hempty hreceive
      obtain ⟨header, -, hheader⟩ := findHeaderEnd_some hfound
      exact readRequest_fits hlength hfront hheader hfits overflowChecks

/-- A request that declares the greatest number of the machine as its length. -/
def greatestLength : String := "GET / HTTP/1.1\r\nContent-Length: 18446744073709551615"

/-- A request that announces the greatest length. -/
def greatestChunk : Chunk := ⟨asBytes greatestLength ++ terminator, by decide⟩

/-- Both builds panic, one at the sum and the other at the slice. -/
theorem greatestLength_panics :
    readRequest true [greatestChunk] = .error .panicked ∧
      readRequest false [greatestChunk] = .error .panicked := by
  have hfind : findHeaderEnd greatestChunk.val = some 52 := by decide
  have hsize : (asBytes greatestLength).length = 52 := by decide
  have hdeclares : ((parseHead greatestLength).bind fun head => contentLength head.2.2) =
      some 18446744073709551615 := by
    decide
  obtain ⟨⟨method, path, headers⟩, hhead, hdeclared⟩ := Option.bind_eq_some_iff.mp hdeclares
  obtain ⟨header, hlength, hheader⟩ := findHeaderEnd_some hfind
  have hprefix : asBytes greatestLength <+: greatestChunk.val := List.prefix_append _ _
  have hsame : header = asBytes greatestLength :=
    (List.prefix_of_prefix_length_le ((List.prefix_append _ _).trans hheader.1) hprefix
      (by omega)).eq_of_length (by omega)
  obtain ⟨hchecked, hwrapped⟩ := readBody_overflows [] hheader.1 (by omega)
    (contentLength_lt hdeclared) (by omega)
  have hfailed : ∀ overflowChecks,
      readBody overflowChecks header.length 18446744073709551615 greatestChunk.val [] =
        .error .panicked → readRequest overflowChecks [greatestChunk] = .error .panicked := by
    intro overflowChecks hpanics
    have htext : utf8Text header = some greatestLength := by
      rw [hsame, utf8Text_asBytes]
    have hread := @readRequest_declared header [] [] greatestChunk _ _ _ _ _ (Nat.zero_le _)
      (findHeaderEnd_none rfl) hheader htext hhead hdeclared overflowChecks
    have hsent : bytesOf [] ++ greatestChunk.val = greatestChunk.val := rfl
    rw [hsent, hpanics] at hread
    exact hread
  exact ⟨hfailed true hchecked, hfailed false (hwrapped (by rw [hlength]; decide))⟩

end Mio.Desktop.BrowserBridgeHttp
