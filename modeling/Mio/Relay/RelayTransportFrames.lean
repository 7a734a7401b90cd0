import Mio.Relay.RelayTransport

/-!
# What comes out of the chunks

The stream that a reader sees: chunks with their size lines, and what ends them. Its reads may split
it anywhere. Behind the two framings, `readFrame` does what `nextFrame` of the library does with the
payloads of the chunks (`readFrame_cases`), so it gives the frames whole and in order, and all of
them exactly where every chunk fits beside the part of a frame before it (`readFrames_iff`).
-/

namespace Mio.Relay.RelayTransport

open Library

/-! ## Streams -/

/-- The line before a chunk, with what may follow its size. -/
def sizeLineBytes (digits : String) (extension : Option String) : Bytes :=
  asBytes (digits ++ extension.elim "" (";" ++ ·)) ++ crlf

/-- The line before a chunk, as short as the reader wants it. -/
structure SizeLine where
  digits : String
  extension : Option String
  value : ℕ
  nonempty : digits ≠ ""
  isValue : hexValue 0 digits.toList = some value
  bounded : value < 2 ^ 64
  oneLine : ∀ text, extension = some text → newline ∉ asBytes text
  within : (sizeLineBytes digits extension).length ≤ maximumChunkSizeLineBytes

/-- The bytes of the line before a chunk. -/
def SizeLine.bytes (line : SizeLine) : Bytes := sizeLineBytes line.digits line.extension

/-- A chunk of at least one byte and at most as many as the reader wants. -/
structure Chunk where
  line : SizeLine
  payload : Bytes
  size : line.value = payload.length
  nonempty : payload ≠ []
  within : payload.length ≤ maximumStreamFrameBytes

/-- The bytes of a chunk. -/
def Chunk.bytes (chunk : Chunk) : Bytes := chunk.line.bytes ++ chunk.payload ++ crlf

/-- The bytes behind the chunks: none, or the chunk that is the last, and anything after it. -/
inductive Ending : Bytes → Prop
  | closed : Ending []
  | last (line : SizeLine) (hzero : line.value = 0) (rest : Bytes) : Ending (line.bytes ++ rest)

/-! ## The size lines -/

/-- A hexadecimal digit is visible, and it is neither a sign nor the start of an extension. -/
theorem hexDigit_visible {c : Char} {digit : ℕ} (h : hexDigit c = some digit) :
    isGraphic c = true ∧ isWhitespace c = false ∧ c ≠ '+' ∧ c ≠ ';' := by
  have hrange : 0x30 ≤ c.toNat ∧ c.toNat ≤ 0x39 ∨ 0x61 ≤ c.toNat ∧ c.toNat ≤ 0x66 ∨
      0x41 ≤ c.toNat ∧ c.toNat ≤ 0x46 := by
    unfold hexDigit at h
    split at h
    · rename_i hdigit
      exact .inl hdigit
    split at h
    · rename_i _ hlower
      exact .inr (.inl hlower)
    split at h
    · rename_i _ _ hupper
      exact .inr (.inr hupper)
    · cases h
  have hne : ∀ other : Char, c.toNat ≠ other.toNat → c ≠ other :=
    fun other hne heq => hne (by rw [heq])
  -- A hexadecimal digit is a digit or a letter of ASCII.
  refine ⟨?_, ?_, hne '+' ?_, hne ';' ?_⟩
  · simp only [isGraphic, Bool.and_eq_true, decide_eq_true_eq, UInt32.le_iff_toNat_le]
    show 0x21 ≤ c.toNat ∧ c.toNat ≤ 0x7e
    omega
  · have hws : ∀ n : ℕ, n < 128 →
      (0x30 ≤ n ∧ n ≤ 0x39 ∨ 0x61 ≤ n ∧ n ≤ 0x66 ∨ 0x41 ≤ n ∧ n ≤ 0x46) →
        isWhitespace (Char.ofNat n) = false := by
      decide
    have hc := hws c.toNat (by omega) hrange
    rwa [Char.ofNat_toNat] at hc
  · show c.toNat ≠ 0x2b
    omega
  · show c.toNat ≠ 0x3b
    omega

/-- The digits of a number are all digits. -/
theorem hexDigit_of_hexValue {value result : ℕ} {digits : List Char}
    (h : hexValue value digits = some result) : ∀ c ∈ digits, ∃ digit, hexDigit c = some digit := by
  induction digits generalizing value with
  | nil => exact fun _ hc => (List.not_mem_nil hc).elim
  | cons c digits ih =>
    unfold hexValue at h
    split at h
    · cases h
    · rename_i digit hdigit
      intro other hother
      rcases List.mem_cons.mp hother with rfl | hother
      · exact ⟨digit, hdigit⟩
      · exact ih h other hother

/-- White space goes only where there is nothing else behind it. -/
theorem rdropWhile_append {front : List Char} (hfront : ∀ c ∈ front, isWhitespace c = false)
    (rest : List Char) :
    (front ++ rest).rdropWhile isWhitespace = front ++ rest.rdropWhile isWhitespace := by
  induction rest using List.reverseRecOn with
  | nil =>
    rw [List.append_nil, List.rdropWhile_nil, List.append_nil, List.rdropWhile_eq_self_iff]
    intro hne
    simp [hfront _ (List.getLast_mem hne)]
  | append_singleton rest c ih =>
    rw [← List.append_assoc, List.rdropWhile_concat, List.rdropWhile_concat, ih]
    split
    · rfl
    · rw [List.append_assoc]

namespace SizeLine

variable (line : SizeLine)

/-- The digits of a size are neither blank nor a sign. -/
theorem digits_visible : ∀ c ∈ line.digits.toList,
    isGraphic c = true ∧ isWhitespace c = false ∧ c ≠ '+' ∧ c ≠ ';' := by
  intro c hc
  obtain ⟨digit, hdigit⟩ := hexDigit_of_hexValue line.isValue c hc
  exact hexDigit_visible hdigit

/-- The size is read from the line. -/
theorem chunkSize_bytes : chunkSize line.bytes = some line.value := by
  have hcrlf : crlf = asBytes "\r\n" := by decide
  have hdigits : line.digits.toList ≠ [] := by
    intro hempty
    exact line.nonempty (String.toList_eq_nil_iff.mp hempty)
  obtain ⟨first, digits, hsplit⟩ := List.exists_cons_of_ne_nil hdigits
  have hvisible := line.digits_visible
  -- The blanks at the end go, and the extension is not looked at.
  have htrim : (trim (line.digits ++ line.extension.elim "" (";" ++ ·) ++ "\r\n")).toList.takeWhile
      (fun c => c ≠ ';') = line.digits.toList := by
    have hblank : ∀ c ∈ line.digits.toList, isWhitespace c = false :=
      fun c hc => (hvisible c hc).2.1
    have hnot : ∀ c ∈ line.digits.toList, decide (c ≠ ';') = true := fun c hc => by
      simpa using (hvisible c hc).2.2.2
    have hfirst : isWhitespace first = false :=
      hblank first (by rw [hsplit]; exact List.mem_cons_self)
    rw [trim, String.toList_ofList, String.append_assoc, String.toList_append, hsplit,
      List.cons_append, List.dropWhile_cons_of_neg (by simp [hfirst]), ← List.cons_append, ← hsplit,
      rdropWhile_append hblank, List.takeWhile_append_of_pos hnot]
    refine List.append_right_eq_self.mpr ?_
    cases line.extension with
    | none => decide
    | some text =>
      have hpre := List.rdropWhile_prefix isWhitespace
        (";" ++ text ++ "\r\n").toList
      have hsemicolon : (";" ++ text ++ "\r\n").toList = ';' :: (text.toList ++ ['\r', '\n']) := by
        simp
      rw [hsemicolon] at hpre
      show List.takeWhile _ ((";" ++ text ++ "\r\n").toList.rdropWhile isWhitespace) = []
      rw [hsemicolon]
      rcases hrest : (';' :: (text.toList ++ ['\r', '\n'])).rdropWhile isWhitespace with _ |
        ⟨c, rest⟩
      · rfl
      · rw [hrest] at hpre
        obtain ⟨rfl, -⟩ := List.cons_prefix_cons.mp hpre
        rfl
  unfold chunkSize bytes sizeLineBytes
  rw [hcrlf, ← asBytes_append, utf8Text_asBytes]
  dsimp only
  rw [htrim, fromStrRadix16, hsplit]
  have hplus : ¬some first = some '+' := by
    have hsign := (hvisible first (by rw [hsplit]; exact List.mem_cons_self)).2.2.1
    exact fun heq => hsign (Option.some.inj heq)
  rw [List.head?_cons, if_neg hplus, ← hsplit, line.isValue, Option.filter_some]
  rw [if_neg (by simp [hsplit]), if_pos (by simpa using line.bounded)]

/-- The only line feed of the line is its last byte. -/
theorem bytes_eq : ∃ front, line.bytes = front ++ [newline] ∧ newline ∉ front := by
  refine ⟨asBytes (line.digits ++ line.extension.elim "" (";" ++ ·)) ++ [0x0d], ?_, ?_⟩
  · unfold bytes sizeLineBytes crlf
    simp
  have hdigits : newline ∉ asBytes line.digits := by
    rw [asBytes_eq_flatMap, List.mem_flatMap]
    rintro ⟨c, hc, hbyte⟩
    obtain ⟨byte, hencoded, hgraphic⟩ := utf8EncodeChar_graphic (line.digits_visible c hc).1
    rw [hencoded, List.mem_singleton] at hbyte
    rw [← hbyte] at hgraphic
    exact absurd hgraphic (by decide)
  have hextension : newline ∉ asBytes (line.extension.elim "" (";" ++ ·)) := by
    rcases hsome : line.extension with _ | text
    · decide
    · have hsemicolon : newline ∉ asBytes ";" := by decide
      have htext := line.oneLine text hsome
      rw [Option.elim_some, asBytes_append, List.mem_append, not_or]
      exact ⟨hsemicolon, htext⟩
  rw [asBytes_append, List.mem_append, List.mem_append, not_or, not_or]
  exact ⟨⟨hdigits, hextension⟩, by decide⟩

/-- The reader takes the line. -/
theorem readBoundedLine_bytes {reader : Source UInt8} {rest : Bytes}
    (h : reader.content = line.bytes ++ rest) :
    ∃ reader', readBoundedLine maximumChunkSizeLineBytes reader = .ok (line.bytes, reader') ∧
      reader'.content = rest := by
  obtain ⟨front, hbytes, hfront⟩ := line.bytes_eq
  have hwithin : line.bytes.length ≤ maximumChunkSizeLineBytes := line.within
  have hlength := hwithin
  rw [hbytes, List.length_append, List.length_singleton] at hlength
  have hsplit : splitUntil newline (maximumChunkSizeLineBytes + 1) reader.content =
      (line.bytes, rest) := by
    rw [h, hbytes, List.append_assoc]
    exact splitUntil_of_stop hfront (by omega) rest
  have hread := reader.readUntil_content newline (maximumChunkSizeLineBytes + 1)
  rw [hsplit] at hread
  have hcomplete : isComplete newline (maximumChunkSizeLineBytes + 1) line.bytes = true := by
    simp [isComplete, hbytes]
  dsimp only at hread
  rw [hcomplete, Bool.true_or, if_pos rfl] at hread
  obtain ⟨reader', hsome, hrest, -⟩ := hread
  refine ⟨reader', ?_, hrest⟩
  have hlast : line.bytes.getLast? = some newline := by rw [hbytes, List.getLast?_concat]
  have hnonempty : line.bytes.isEmpty = false := by simp [hbytes]
  unfold readBoundedLine
  rw [if_neg (by decide), hsome]
  dsimp only
  rw [hnonempty, hlast]
  simp [hwithin]

end SizeLine

/-! ## The chunks -/

section Chunks

variable {response : ChunkedHttpResponse} {chunk : Chunk} {rest : Bytes}

/-- The payload of a chunk is read. -/
theorem readChunkData_payload {reader : Source UInt8}
    (h : reader.content = chunk.payload ++ crlf ++ rest) :
    ∃ reader', readChunkData chunk.payload.length reader = .ok (chunk.payload, reader') ∧
      reader'.content = rest := by
  have hsize : chunk.payload.length ≤ reader.content.length := by
    rw [h]
    simp
  obtain ⟨reader₁, hpayload, hcontent, -⟩ := Source.readExact_eq_some hsize
  rw [h, List.append_assoc, List.drop_left] at hcontent
  rw [h, List.append_assoc, List.take_left] at hpayload
  have hend : 2 ≤ reader₁.content.length := by
    rw [hcontent]
    simp [crlf]
  obtain ⟨reader₂, hcrlf, hrest, -⟩ := Source.readExact_eq_some hend
  have htwo : crlf.length = 2 := rfl
  rw [hcontent, ← htwo, List.drop_left] at hrest
  rw [hcontent, ← htwo, List.take_left, htwo] at hcrlf
  refine ⟨reader₂, ?_, hrest⟩
  unfold readChunkData
  rw [hpayload]
  dsimp only
  rw [hcrlf]
  rfl

/-- A chunk is decoded where it fits, and refused where it does not. -/
theorem readChunk_chunk (h : response.reader.content = chunk.bytes ++ rest) :
    if response.decoded.length + chunk.payload.length ≤ maximumStreamFrameBytes then
      ∃ reader, reader.content = rest ∧ readChunk response =
        .ok { response with reader, decoded := response.decoded ++ chunk.payload }
    else readChunk response = .error .protocol := by
  have hbytes : response.reader.content = chunk.line.bytes ++ (chunk.payload ++ crlf ++ rest) := by
    rw [h, Chunk.bytes]
    simp
  obtain ⟨reader₁, hline, hcontent⟩ := chunk.line.readBoundedLine_bytes hbytes
  obtain ⟨reader₂, hdata, hrest⟩ := readChunkData_payload hcontent
  have hpos : chunk.payload.length ≠ 0 := by simpa using chunk.nonempty
  have hwithin := chunk.within
  unfold readChunk
  rw [hline]
  dsimp only
  rw [chunk.line.chunkSize_bytes, chunk.size]
  dsimp only
  rw [if_neg hpos]
  -- The size of the chunk alone is within the limit, so the sum decides.
  by_cases hfits : response.decoded.length + chunk.payload.length ≤ maximumStreamFrameBytes
  · have hok : ¬(decide (maximumStreamFrameBytes < chunk.payload.length) ||
        decide (maximumStreamFrameBytes < response.decoded.length + chunk.payload.length)) =
          true := by
      simp only [Bool.or_eq_true, decide_eq_true_eq, not_or]
      omega
    rw [if_pos hfits, if_neg hok, hdata]
    exact ⟨reader₂, hrest, rfl⟩
  · have hbad : (decide (maximumStreamFrameBytes < chunk.payload.length) ||
        decide (maximumStreamFrameBytes < response.decoded.length + chunk.payload.length)) =
          true := by
      simp only [Bool.or_eq_true, decide_eq_true_eq]
      omega
    rw [if_neg hfits, if_pos hbad]

/-- Behind the chunks there is nothing to decode. -/
theorem readChunk_ending {ending : Bytes} (hending : Ending ending)
    (h : response.reader.content = ending) :
    (∃ e, readChunk response = .error e) ∨
      ∃ reader, readChunk response = .ok { response with reader, finished := true } := by
  cases hending with
  -- The connection is closed, so the line that was cut cannot be read.
  | closed =>
    have hread := response.reader.readUntil_content newline (maximumChunkSizeLineBytes + 1)
    have hsplit : splitUntil newline (maximumChunkSizeLineBytes + 1) response.reader.content =
        ([], []) := by
      rw [h]
      rfl
    rw [hsplit] at hread
    dsimp only at hread
    have hline : readBoundedLine maximumChunkSizeLineBytes response.reader =
        .error .unavailable := by
      unfold readBoundedLine
      rw [if_neg (by decide)]
      split at hread
      · obtain ⟨reader', hsome, -⟩ := hread
        rw [hsome]
        rfl
      · rw [hread]
    refine .inl ⟨.unavailable, ?_⟩
    unfold readChunk
    rw [hline]
  -- The last chunk ends the response, if its trailers can be read.
  | last line hzero rest =>
    obtain ⟨reader₁, hline, -⟩ := line.readBoundedLine_bytes h
    unfold readChunk
    rw [hline]
    dsimp only
    rw [line.chunkSize_bytes, hzero]
    dsimp only
    rw [if_pos rfl]
    split
    · exact .inl ⟨_, rfl⟩
    · exact .inr ⟨_, rfl⟩

end Chunks

/-! ## What is written -/

/-- One more digit. -/
theorem hexValue_concat (value : ℕ) (digits : List Char) (c : Char) :
    hexValue value (digits ++ [c]) =
      (hexValue value digits).bind fun value => (hexDigit c).map (value * 16 + ·) := by
  induction digits generalizing value with
  | nil =>
    rw [List.nil_append]
    unfold hexValue
    cases hexDigit c <;> rfl
  | cons first digits ih =>
    rw [List.cons_append]
    unfold hexValue
    cases hexDigit first with
    | none => rfl
    | some digit => exact ih _

/-- The digits that are written have the value of the number. -/
theorem hexValue_upperHex (n : ℕ) : hexValue 0 (upperHex n).toList = some n := by
  have hdigit : ∀ d < 16, hexDigit (Nat.digitChar d).toUpper = some d := by decide
  rw [upperHex, String.toList_ofList]
  induction n using Nat.strongRecOn with
  | ind n ih =>
    by_cases hsmall : n < 16
    · rw [Nat.toDigits_of_lt_base hsmall, List.map_singleton]
      unfold hexValue
      rw [hdigit n hsmall]
      simp [hexValue]
    · have hquotient := ih (n / 16) (by omega)
      have hmod : n % 16 < 16 := Nat.mod_lt n (by omega)
      rw [Nat.toDigits_of_base_le (by omega) (by omega), List.map_append, List.map_singleton,
        hexValue_concat, hquotient, Option.bind_some, hdigit _ hmod, Option.map_some]
      congr 1
      omega

/-- The line before a chunk that is written. -/
def writtenLine (size : ℕ) (hsize : size ≤ maximumStreamFrameBytes) : SizeLine where
  digits := upperHex size
  extension := none
  value := size
  nonempty := by
    intro hempty
    have hvalue := hexValue_upperHex size
    rw [upperHex, String.toList_ofList] at hvalue
    have hnil := congrArg String.toList hempty
    rw [upperHex, String.toList_ofList] at hnil
    exact Nat.toDigits_ne_nil (List.map_eq_nil_iff.mp hnil)
  isValue := hexValue_upperHex size
  bounded := Nat.lt_of_le_of_lt hsize (by decide)
  oneLine := fun _ htext => by cases htext
  within := by
    have hvisible : ∀ c ∈ (upperHex size).toList, (String.utf8EncodeChar c).length = 1 := by
      intro c hc
      obtain ⟨digit, hdigit⟩ := hexDigit_of_hexValue (hexValue_upperHex size) c hc
      -- Every digit is one byte.
      obtain ⟨byte, hencoded, -⟩ := utf8EncodeChar_graphic (hexDigit_visible hdigit).1
      rw [hencoded, List.length_singleton]
    -- A size within the limit has four digits at most.
    have hfour : (Nat.toDigits 16 size).length ≤ 4 := by
      rw [Nat.length_toDigits_le_iff (by omega) (by omega)]
      exact Nat.lt_of_le_of_lt hsize (by decide)
    have hlength : (asBytes (upperHex size)).length = (Nat.toDigits 16 size).length := by
      rw [asBytes_eq_flatMap, List.length_flatMap, List.map_congr_left hvisible, List.map_const',
        List.sum_replicate_nat, Nat.mul_one, upperHex, String.toList_ofList, List.length_map]
    have hbytes : sizeLineBytes (upperHex size) none = asBytes (upperHex size) ++ crlf := by
      unfold sizeLineBytes
      rw [Option.elim_none, String.append_empty]
    rw [hbytes, List.length_append, hlength]
    show _ + 2 ≤ 64
    omega

/-- A chunk as it is written. -/
def writtenChunk (value : Bytes)
    (h : value ≠ [] ∧ value.length ≤ maximumStreamFrameBytes) : Chunk :=
  ⟨writtenLine value.length h.2, value, rfl, h.1, h.2⟩

/-- A written chunk has the value as its payload. -/
theorem writtenChunk_payload (value : Bytes) (h) : (writtenChunk value h).payload = value := rfl

/-- What is written is a chunk that the reader takes. -/
theorem writeHttpChunk_eq_ok {value bytes : Bytes} (h : writeHttpChunk value = .ok bytes) :
    ∃ chunk : Chunk, chunk.payload = value ∧ chunk.bytes = bytes := by
  unfold writeHttpChunk at h
  split at h
  · cases h
  rename_i hbad
  simp only [Bool.or_eq_true, decide_eq_true_eq, not_or, not_lt, List.isEmpty_iff] at hbad
  obtain rfl := Except.ok.inj h
  refine ⟨writtenChunk value hbad, rfl, ?_⟩
  unfold Chunk.bytes SizeLine.bytes writtenChunk writtenLine sizeLineBytes
  rw [Option.elim_none, String.append_empty]

/-! ## The frames -/

/-- The stream of the chunks lies ahead. -/
structure Carries (response : ChunkedHttpResponse) (chunks : List Chunk) (ending : Bytes) :
    Prop where
  unfinished : response.finished = false
  ahead : response.reader.content = chunks.flatMap Chunk.bytes ++ ending
  ends : Ending ending

section Frames

variable {α : Type} {fromSlice : Bytes → Option α} {response : ChunkedHttpResponse}
  {chunks : List Chunk} {ending : Bytes}

/-- A line that is decoded already is the next frame. -/
theorem readFrame_of_takeFrame {line decoded : Bytes}
    (h : takeFrame newline response.decoded = some (line, decoded)) :
    readFrame fromSlice response =
      match fromSlice line with
      | none => .error .protocol
      | some value => .ok (value, { response with decoded }) := by
  rewrite [readFrame, h]
  rfl

/-- Without a line and behind the end there is no frame. -/
theorem readFrame_of_finished (h : takeFrame newline response.decoded = none)
    (hfinished : response.finished = true) : readFrame fromSlice response = .error .protocol := by
  rw [readFrame, h]
  simp [hfinished]

/-- Without a line the next chunk is read. -/
theorem readFrame_of_readChunk (h : takeFrame newline response.decoded = none)
    (hfinished : response.finished = false) :
    readFrame fromSlice response =
      match readChunk response with
      | .error e => .error e
      | .ok response => readFrame fromSlice response := by
  rw [readFrame, h]
  dsimp only
  rw [dif_neg (by simp [hfinished])]
  split
  · rename_i e herror
    rw [herror]
  · rename_i response' hok
    rw [hok]

/-- A frame is what the library takes from the payloads of the chunks. Where it takes none, there is
an error. -/
theorem readFrame_cases (h : Carries response chunks ending) :
    (∃ line response' chunks',
      nextFrame newline maximumStreamFrameBytes response.decoded (chunks.map Chunk.payload) =
        some (line, response'.decoded, chunks'.map Chunk.payload) ∧
      Carries response' chunks' ending ∧
      readFrame fromSlice response =
        match fromSlice line with
        | none => .error .protocol
        | some value => .ok (value, response')) ∨
    nextFrame newline maximumStreamFrameBytes response.decoded (chunks.map Chunk.payload) = none ∧
      ∃ e, readFrame fromSlice response = .error e := by
  -- By induction on the chunks, for any response that carries them.
  induction chunks generalizing response with
  | nil =>
    rcases htake : takeFrame newline response.decoded with _ | ⟨line, decoded⟩
    · refine .inr ⟨by rw [List.map_nil, nextFrame, htake]; rfl, ?_⟩
      have hending := h.ahead
      rw [List.flatMap_nil, List.nil_append] at hending
      -- Without a chunk, the end of the stream is read, and it completes no frame.
      rw [readFrame_of_readChunk htake h.unfinished]
      obtain ⟨e, herror⟩ | ⟨reader, hok⟩ := readChunk_ending h.ends hending
      · rw [herror]
        exact ⟨e, rfl⟩
      · rw [hok]
        exact ⟨.protocol, readFrame_of_finished htake rfl⟩
    · refine .inl ⟨line, { response with decoded }, [], ?_, ⟨h.unfinished, h.ahead, h.ends⟩,
        readFrame_of_takeFrame htake⟩
      rw [List.map_nil, nextFrame, htake]
      rfl
  | cons chunk chunks ih =>
    have hahead := h.ahead
    rw [List.flatMap_cons, List.append_assoc] at hahead
    rw [List.map_cons, nextFrame]
    rcases htake : takeFrame newline response.decoded with _ | ⟨line, decoded⟩
    · have hchunk := readChunk_chunk hahead
      dsimp only
      rw [readFrame_of_readChunk htake h.unfinished]
      -- The next chunk is added to the buffer, or it is over the limit.
      split
      · rename_i hfits
        rw [if_pos hfits] at hchunk
        obtain ⟨reader, hreader, hok⟩ := hchunk
        have hcarries : Carries { response with
            reader, decoded := response.decoded ++ chunk.payload } chunks ending :=
          ⟨h.unfinished, hreader, h.ends⟩
        rw [hok]
        exact ih hcarries
      · rename_i hbig
        rw [if_neg hbig] at hchunk
        rw [hchunk]
        exact .inr ⟨rfl, .protocol, rfl⟩
    · exact .inl ⟨line, { response with decoded }, chunk :: chunks, rfl,
        ⟨h.unfinished, h.ahead, h.ends⟩, readFrame_of_takeFrame htake⟩

/-- The frames of so many calls, up to the first error. -/
def readFrames (fromSlice : Bytes → Option α) :
    ℕ → ChunkedHttpResponse → List α × Option RelayTransportErrorKind
  | 0, _ => ([], none)
  | calls + 1, response =>
    match readFrame fromSlice response with
    | .error e => ([], some e)
    | .ok (value, response) =>
      let (values, error) := readFrames fromSlice calls response
      (value :: values, error)

/-- Only an error ends the calls early. -/
theorem length_readFrames (calls : ℕ) (response : ChunkedHttpResponse) :
    (readFrames fromSlice calls response).2 = none →
      (readFrames fromSlice calls response).1.length = calls := by
  induction calls generalizing response with
  | zero => exact fun _ => rfl
  | succ calls ih =>
    unfold readFrames
    split
    · exact fun h => by cases h
    · intro h
      rw [List.length_cons, ih _ h]

/-- The calls give the values of the frames that the library takes. -/
theorem readFrames_eq_pullFrames {frames : List (α × Bytes)}
    (hframes : ∀ frame ∈ frames, newline ∉ frame.2 ∧
      fromSlice (frame.2 ++ [newline]) = some frame.1)
    (h : Carries response chunks ending)
    (hstream : response.decoded ++ (chunks.map Chunk.payload).flatten =
      joinFrames newline (frames.map (·.2)))
    (calls : ℕ) :
    (readFrames fromSlice calls response).1 = (frames.map (·.1)).take
      (pullFrames newline maximumStreamFrameBytes calls response.decoded
        (chunks.map Chunk.payload)).length := by
  -- By induction on the calls.
  induction calls generalizing response chunks frames with
  | zero => rfl
  | succ calls ih =>
    unfold readFrames pullFrames
    obtain ⟨line, response', chunks', hnext, hcarries, hread⟩ | ⟨hnone, e, herror⟩ :=
      @readFrame_cases α fromSlice response chunks ending h
    · cases frames with
      | nil =>
        obtain ⟨hdecoded, hpayloads⟩ := List.append_eq_nil_iff.mp hstream
        rw [hdecoded, nextFrame_eq_none hpayloads] at hnext
        cases hnext
      | cons frame frames =>
        rw [List.map_cons, joinFrames_cons] at hstream
        rw [List.forall_mem_cons] at hframes
        obtain ⟨⟨hnewline, hvalue⟩, hframes⟩ := hframes
        obtain ⟨buffer, payloads, htaken, hrest, -⟩ | ⟨hnone, -⟩ :=
          @nextFrame_cases _ _ newline maximumStreamFrameBytes _ _ _ _ hnewline hstream
        · rw [hnext] at htaken
          obtain ⟨rfl, hsame⟩ := Prod.mk.inj (Option.some.inj htaken)
          obtain ⟨rfl, rfl⟩ := Prod.mk.inj hsame
          rw [hnext, hread, hvalue]
          dsimp only
          rw [ih hframes hcarries hrest, List.length_cons, List.map_cons, List.take_succ_cons]
        · rw [hnone] at hnext
          cases hnext
    · rw [hnone, herror]
      rfl

end Frames

section Stream

variable {α : Type} {fromSlice : Bytes → Option α} {frames : List (α × Bytes)}
  {response : ChunkedHttpResponse} {chunks : List Chunk} {ending : Bytes}
  (hframes : ∀ frame ∈ frames, newline ∉ frame.2 ∧ fromSlice (frame.2 ++ [newline]) = some frame.1)
  (h : Carries response chunks ending) (hempty : response.decoded = [])
  (hstream : (chunks.map Chunk.payload).flatten = joinFrames newline (frames.map (·.2)))

include hframes h hempty hstream

/-- The calls give the first frames, as many of them as the library takes. -/
theorem readFrames_values (calls : ℕ) :
    let pulled := pullFrames newline maximumStreamFrameBytes calls [] (chunks.map Chunk.payload)
    (readFrames fromSlice calls response).1 = (frames.map (·.1)).take pulled.length ∧
      pulled <+: (frames.map (·.2)).map (· ++ [newline]) ∧
      ∀ line ∈ pulled, line.length ≤ maximumStreamFrameBytes := by
  have hlines : ∀ line ∈ frames.map (·.2), newline ∉ line :=
    List.forall_mem_map.mpr fun frame hframe => (hframes frame hframe).1
  have hdecoded : response.decoded ++ (chunks.map Chunk.payload).flatten =
      joinFrames newline (frames.map (·.2)) := by
    rw [hempty, List.nil_append, hstream]
  have hvalues := readFrames_eq_pullFrames hframes h hdecoded calls
  rw [hempty] at hdecoded hvalues
  exact ⟨hvalues, pullFrames_inOrder hlines hdecoded calls,
    pullFrames_length hlines hdecoded (Nat.zero_le _) calls⟩

/-- After the frames there is an error. -/
theorem readFrames_error : (readFrames fromSlice (frames.length + 1) response).2 ≠ none := by
  obtain ⟨hvalues, -⟩ := readFrames_values hframes h hempty hstream (frames.length + 1)
  intro hnone
  have hall := length_readFrames _ _ hnone
  rw [hvalues, List.length_take, List.length_map] at hall
  omega

/-- The calls give all frames exactly where the chunks fit. -/
theorem readFrames_eq_iff :
    (readFrames fromSlice (frames.length + 1) response).1 = frames.map (·.1) ↔
      ChunksFit newline maximumStreamFrameBytes [] (chunks.map Chunk.payload) := by
  obtain ⟨hvalues, hpulled, -⟩ := readFrames_values hframes h hempty hstream (frames.length + 1)
  have hshort := hpulled.length_le
  rw [List.length_map, List.length_map] at hshort
  have hlines : ∀ line ∈ frames.map (·.2), newline ∉ line :=
    List.forall_mem_map.mpr fun frame hframe => (hframes frame hframe).1
  have hpayloads : ∀ payload ∈ chunks.map Chunk.payload, payload ≠ [] :=
    List.forall_mem_map.mpr fun chunk _ => chunk.nonempty
  have hmany : (frames.map (·.2)).length ≤ frames.length + 1 := by
    rw [List.length_map]
    omega
  rw [← pullFrames_eq_iff hlines hpayloads ((List.nil_append _).trans hstream) hmany, hvalues]
  -- Both sides say that no frame is missing.
  constructor
  · intro hall
    have hfull := congrArg List.length hall
    rw [List.length_take, List.length_map] at hfull
    refine hpulled.eq_of_length ?_
    rw [List.length_map, List.length_map]
    omega
  · intro hall
    rw [hall, List.length_map, List.length_map, ← List.length_map (·.1), List.take_length]

/-- No frame over the limit is given, and none after it. -/
theorem length_readFrames_le (calls : ℕ) {i : ℕ} {frame : α × Bytes}
    (hframe : frames[i]? = some frame)
    (hlarge : maximumStreamFrameBytes < frame.2.length + 1) :
    (readFrames fromSlice calls response).1.length ≤ i := by
  obtain ⟨hvalues, hpulled, hsize⟩ := readFrames_values hframes h hempty hstream calls
  by_contra hmore
  rw [not_le, hvalues, List.length_take] at hmore
  have hin := Nat.lt_of_lt_of_le hmore (Nat.min_le_left _ _)
  have hline := hsize _ (List.getElem_mem hin)
  rw [hpulled.getElem hin, List.getElem_map, List.getElem_map, List.length_append,
    List.length_singleton, (List.getElem?_eq_some_iff.mp hframe).2] at hline
  omega

end Stream

/-- The calls give the first frames, whole and in order, and then an error. They give all frames
exactly where every chunk fits beside the part of a frame that comes before it. They never give a
frame over the limit. -/
theorem readFrames_iff {α : Type} (fromSlice : Bytes → Option α) (frames : List (α × Bytes))
    (hframes : ∀ frame ∈ frames,
      newline ∉ frame.2 ∧ fromSlice (frame.2 ++ [newline]) = some frame.1)
    (chunks : List Chunk)
    (hstream : (chunks.map Chunk.payload).flatten = joinFrames newline (frames.map (·.2)))
    (ending : Bytes) (response : ChunkedHttpResponse) (h : Carries response chunks ending)
    (hempty : response.decoded = []) :
    let result := readFrames fromSlice (frames.length + 1) response
    result.1 <+: frames.map (·.1) ∧ result.2 ≠ none ∧
      (result.1 = frames.map (·.1) ↔
        ChunksFit newline maximumStreamFrameBytes [] (chunks.map Chunk.payload)) ∧
      ∀ i frame, frames[i]? = some frame → maximumStreamFrameBytes < frame.2.length + 1 →
        result.1.length ≤ i := by
  intro result
  refine ⟨?_, readFrames_error hframes h hempty hstream,
    readFrames_eq_iff hframes h hempty hstream, fun i frame hframe hlarge => ?_⟩
  · obtain ⟨hvalues, -⟩ := readFrames_values hframes h hempty hstream (frames.length + 1)
    show (readFrames fromSlice (frames.length + 1) response).1 <+: _
    rw [hvalues]
    exact List.take_prefix _ _
  · exact length_readFrames_le hframes h hempty hstream _ hframe hlarge

namespace Sample

/-- The bytes that stand for themselves in a JSON string. -/
def isPlain (byte : UInt8) : Bool := 0x20 ≤ byte && byte < 0x80 && byte != 0x22 && byte != 0x5c

/-- A JSON string of such bytes, in its line (`serde_json::from_slice`). -/
def readText : Bytes → Option Bytes
  | [] => none
  | first :: rest =>
    let text := rest.takeWhile isPlain
    if first = 0x22 ∧ rest.drop text.length = [0x22, newline] then some text else none

/-- A JSON string of such bytes. -/
def quoted (text : Bytes) : Bytes := 0x22 :: text ++ [0x22]

/-- A quoted text is one line, and is read back. -/
theorem readText_quoted {text : Bytes} (h : ∀ byte ∈ text, isPlain byte = true) :
    newline ∉ quoted text ∧ readText (quoted text ++ [newline]) = some text := by
  have htext : (text ++ [0x22, newline]).takeWhile isPlain = text := by
    rw [List.takeWhile_append_of_pos h]
    exact List.append_right_eq_self.mpr rfl
  constructor
  · intro hmem
    rcases List.mem_cons.mp hmem with hquote | hmem
    · exact absurd hquote (by decide)
    rcases List.mem_append.mp hmem with hmem | hmem
    · exact absurd (h newline hmem) (by decide)
    · exact absurd (List.mem_singleton.mp hmem) (by decide)
  · have hline : quoted text ++ [newline] = 0x22 :: (text ++ [0x22, newline]) := by simp [quoted]
    rw [hline, readText, htext, List.drop_left]
    rfl

/-- A frame with a text. -/
def frame (text : Bytes) : Bytes × Bytes := (text, quoted text)

/-- A chunk comes in a read of its own. -/
def read (chunk : Chunk) : Read UInt8 := ⟨chunk.bytes, by simp [Chunk.bytes, crlf]⟩

/-- The chunks, and then the end of the connection. -/
def response (chunks : List Chunk) : ChunkedHttpResponse :=
  { reader := { buffer := [], reads := chunks.map read, fails := false }
    decoded := []
    finished := false }

/-- A response carries its chunks. -/
theorem carries_response (chunks : List Chunk) : Carries (response chunks) chunks [] where
  unfinished := rfl
  ahead := by simp [response, Source.content, read, List.flatMap_map]
  ends := .closed

end Sample

/-- The bounds of the chunks are not those of the two lines. -/
theorem Sample.readFrames_iff_split :
    let chunks := [writtenChunk [0x22, 0x61] (by decide),
      writtenChunk [0x22, newline, 0x22] (by decide),
        writtenChunk [0x62, 0x22, newline] (by decide)]
    (readFrames readText 3 (response chunks)).1 = [[0x61], [0x62]] := by
  intro chunks
  have hframes : ∀ line ∈ [frame [0x61], frame [0x62]],
      newline ∉ line.2 ∧ readText (line.2 ++ [newline]) = some line.1 := by
    decide
  obtain ⟨-, -, hall, -⟩ :=
    readFrames_iff readText [frame [0x61], frame [0x62]] hframes chunks rfl []
    (response chunks) (carries_response chunks) rfl
  refine hall.mpr ?_
  show ChunksFit newline maximumStreamFrameBytes []
    [[0x22, 0x61], [0x22, newline, 0x22], [0x62, 0x22, newline]]
  exact ⟨by decide, by decide, by decide, trivial⟩

namespace Sample

/-- So many letters. -/
def letters (n : ℕ) : Bytes := List.replicate n 0x61

/-- The letters of a sum. -/
theorem letters_add (n m : ℕ) : letters (n + m) = letters n ++ letters m :=
  List.replicate_add n m 0x61

/-- The first chunk stops within the first of two lines. -/
def early : Bytes := 0x22 :: letters 3999

/-- The second chunk has what is left. -/
def late : Bytes := letters 1001 ++ (0x22 :: newline :: (quoted (letters 5000) ++ [newline]))

/-- The first chunk has 4000 bytes. -/
theorem length_early : early.length = 4000 := by
  rw [early, List.length_cons, letters, List.length_replicate]

/-- The second chunk has 6006 bytes. -/
theorem length_late : late.length = 6006 := by
  rw [late, quoted, letters, letters, List.length_append, List.length_cons, List.length_cons,
    List.length_append, List.length_append, List.length_cons, List.length_replicate,
    List.length_replicate]
  rfl

/-- The second chunk is within the limit of a chunk. -/
theorem late_within : late ≠ [] ∧ late.length ≤ maximumStreamFrameBytes := by
  refine ⟨List.ne_nil_of_length_pos ?_, ?_⟩ <;> rw [length_late] <;> decide

/-- The first chunk is within the limit of a chunk. -/
theorem early_within : early ≠ [] ∧ early.length ≤ maximumStreamFrameBytes := by
  refine ⟨List.cons_ne_nil _ _, ?_⟩
  rw [length_early]
  decide

/-- A chunk that does not fit beside what the first one has of a line is an error. -/
theorem readFrame_of_large {α : Type} {fromSlice : Bytes → Option α} {first second : Chunk}
    (hfirst : newline ∉ first.payload)
    (hlarge : maximumStreamFrameBytes < first.payload.length + second.payload.length) :
    readFrame fromSlice (response [first, second]) = .error .protocol := by
  have hahead : (response [first, second]).reader.content =
      first.bytes ++ (second.bytes ++ []) := by
    rw [(carries_response [first, second]).ahead]
    simp
  have hdecoded : (response [first, second]).decoded.length + first.payload.length ≤
      maximumStreamFrameBytes := by
    have hwithin := first.within
    show 0 + _ ≤ _
    omega
  have hread := readChunk_chunk hahead
  rw [if_pos hdecoded] at hread
  obtain ⟨reader, hreader, hok⟩ := hread
  have hnext := @readChunk_chunk ⟨reader, first.payload, false⟩ second _ hreader
  rw [if_neg (Nat.not_le.mpr hlarge)] at hnext
  have hlater : readFrame fromSlice ⟨reader, first.payload, false⟩ = .error .protocol := by
    rw [readFrame_of_readChunk (takeFrame_eq_none hfirst) rfl, hnext]
  rw [readFrame_of_readChunk rfl rfl, hok]
  exact hlater

/-- Both lines and both chunks are well within the limit, and no line is read: the second chunk does
not fit beside what there is of the first line. -/
theorem readFrames_loses :
    let line := frame (letters 5000)
    let chunks := [writtenChunk early early_within, writtenChunk late late_within]
    newline ∉ line.2 ∧ readText (line.2 ++ [newline]) = some line.1 ∧
      line.2.length + 1 ≤ maximumStreamFrameBytes ∧ Carries (response chunks) chunks [] ∧
      (chunks.map Chunk.payload).flatten = joinFrames newline [line.2, line.2] ∧
      readFrames readText 3 (response chunks) = ([], some .protocol) := by
  intro line chunks
  have hplain : ∀ n, ∀ byte ∈ letters n, isPlain byte = true := by
    intro n byte hbyte
    rw [List.eq_of_mem_replicate hbyte]
    decide
  obtain ⟨hnewline, hline⟩ := readText_quoted (hplain 5000)
  have hlength : line.2.length + 1 ≤ maximumStreamFrameBytes := by
    show (quoted (letters 5000)).length + 1 ≤ _
    rw [quoted, letters, List.length_append, List.length_cons, List.length_replicate]
    decide
  have hstream : (chunks.map Chunk.payload).flatten = joinFrames newline [line.2, line.2] := by
    have hsplit : letters 5000 = letters 3999 ++ letters 1001 := letters_add 3999 1001
    show [early, late].flatten =
      joinFrames newline [quoted (letters 5000), quoted (letters 5000)]
    rw [early, late, quoted, hsplit]
    simp [joinFrames]
  have hearly : newline ∉ early := by
    intro hmem
    rcases List.mem_cons.mp hmem with hquote | hmem
    · exact absurd hquote (by decide)
    · exact absurd (hplain 3999 newline hmem) (by decide)
  have hread : readFrame readText (response chunks) = .error .protocol := by
    refine @readFrame_of_large _ _ (writtenChunk early early_within)
      (writtenChunk late late_within) hearly ?_
    rw [writtenChunk_payload, writtenChunk_payload, length_early, length_late]
    decide
  refine ⟨hnewline, hline, hlength, carries_response chunks, hstream, ?_⟩
  rw [readFrames, hread]

end Sample

/-- The frames that are written are read again, if nothing changes the chunks on the way. -/
theorem readFrames_writes {α : Type} {fromSlice : Bytes → Option α} {frames : List (α × Bytes)}
    (hframes : ∀ frame ∈ frames,
      newline ∉ frame.2 ∧ fromSlice (frame.2 ++ [newline]) = some frame.1)
    {writes : List Bytes}
    (hwrites : List.Forall₂ (fun frame bytes => writeJsonChunk (some frame.2) = .ok bytes)
      frames writes)
    {ending : Bytes} (hending : Ending ending) {reader : Source UInt8}
    (hreader : reader.content = writes.flatten ++ ending) :
    (readFrames fromSlice (frames.length + 1) ⟨reader, [], false⟩).1 = frames.map (·.1) := by
  have hchunks : ∃ chunks : List Chunk, chunks.flatMap Chunk.bytes = writes.flatten ∧
      chunks.map Chunk.payload = (frames.map (·.2)).map (· ++ [newline]) := by
    clear hframes hreader
    induction hwrites with
    | nil => exact ⟨[], rfl, rfl⟩
    | cons hwrite _ ih =>
      obtain ⟨chunk, hpayload, hbytes⟩ := writeHttpChunk_eq_ok hwrite
      obtain ⟨chunks, hrest, hpayloads⟩ := ih
      refine ⟨chunk :: chunks, ?_, ?_⟩
      · rw [List.flatMap_cons, List.flatten_cons, hbytes, hrest]
      · rw [List.map_cons, List.map_cons, List.map_cons, hpayload, hpayloads]
  obtain ⟨chunks, hbytes, hpayloads⟩ := hchunks
  have hcarries : Carries ⟨reader, [], false⟩ chunks ending :=
    ⟨rfl, by rw [hbytes, hreader], hending⟩
  have hstream : (chunks.map Chunk.payload).flatten = joinFrames newline (frames.map (·.2)) := by
    rw [hpayloads, joinFrames, List.flatMap_def]
  rw [readFrames_eq_iff hframes hcarries rfl hstream, hpayloads]
  refine chunksFit_frames ?_
  intro line hline
  have hin : line ++ [newline] ∈ chunks.map Chunk.payload := by
    rw [hpayloads]
    exact List.mem_map_of_mem hline
  obtain ⟨chunk, -, hchunk⟩ := List.mem_map.mp hin
  have hwithin := chunk.within
  rw [hchunk, List.length_append, List.length_singleton] at hwithin
  exact hwithin

end Mio.Relay.RelayTransport
