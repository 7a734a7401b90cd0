import Mio.Library.Delimited
import Mio.Library.Reads
import Mio.Relay.RelayClient

/-!
# The frames of a relay connection

What `crates/moe-relay-transport/src/lib.rs` writes and reads once the headers of a connection are
through. Either way it is a stream of JSON values, each on a line of its own, in the chunks of
HTTP/1.1. A frame is written as one chunk. On the way the stream may be put into other chunks, so
`ChunkedHttpResponse` gathers the bytes of the chunks until it has a line.

The connection is a source of bytes whose reads may split them anywhere. `serde_json::from_slice` is
a parameter. Every caller drops a connection that has returned an error, so an error comes without a
state.
-/

namespace Mio.Relay.RelayTransport

open Library

/-- The greatest size of the headers, in bytes. -/
def maximumStreamHeaderBytes : ℕ := 8 * 1024

/-- The greatest size of a frame, in bytes. -/
def maximumStreamFrameBytes : ℕ := 8 * 1024

/-- The greatest length of the line before a chunk. -/
def maximumChunkSizeLineBytes : ℕ := 64

/-- The byte that ends a line. -/
def newline : UInt8 := 0x0a

/-- The end of a line of HTTP. -/
def crlf : Bytes := [0x0d, newline]

/-! ## Writing -/

/-- A number in hexadecimal digits (`{:X}`). -/
def upperHex (n : ℕ) : String := .ofList ((Nat.toDigits 16 n).map Char.toUpper)

/-- The bytes that are written for a chunk. -/
def writeHttpChunk (value : Bytes) : Except RelayTransportErrorKind Bytes :=
  if value.isEmpty || maximumStreamFrameBytes < value.length then .error .protocol
  else .ok (asBytes (upperHex value.length) ++ crlf ++ value ++ crlf)

/-- The bytes that are written for a frame, by its encoding, which may fail. -/
def writeJsonChunk (encoded : Option Bytes) : Except RelayTransportErrorKind Bytes :=
  match encoded with
  | none => .error .protocol
  | some encoded => writeHttpChunk (encoded ++ [newline])

/-! ## The size of a chunk -/

/-- The value of a hexadecimal digit (`char::to_digit`). -/
def hexDigit (c : Char) : Option ℕ :=
  if '0' ≤ c ∧ c ≤ '9' then some (c.toNat - '0'.toNat)
  else if 'a' ≤ c ∧ c ≤ 'f' then some (c.toNat - 'a'.toNat + 10)
  else if 'A' ≤ c ∧ c ≤ 'F' then some (c.toNat - 'A'.toNat + 10)
  else none

/-- The value of hexadecimal digits that follow others. -/
def hexValue (value : ℕ) : List Char → Option ℕ
  | [] => some value
  | c :: digits =>
    match hexDigit c with
    | none => none
    | some digit => hexValue (value * 16 + digit) digits

/-- The number in a text (`usize::from_str_radix`). -/
def fromStrRadix16 (text : List Char) : Option ℕ :=
  let digits := if text.head? = some '+' then text.tail else text
  if digits.isEmpty then none else (hexValue 0 digits).filter fun value => value < 2 ^ 64

/-- The size in the line before a chunk, up to the extensions. -/
def chunkSize (sizeLine : Bytes) : Option ℕ :=
  match utf8Text sizeLine with
  | none => none
  | some sizeText => fromStrRadix16 ((trim sizeText).toList.takeWhile fun c => c ≠ ';')

/-! ## Reading -/

/-- Reads a line within the limit, with its end. -/
def readBoundedLine (maximum : ℕ) (reader : Source UInt8) :
    Except RelayTransportErrorKind (Bytes × Source UInt8) :=
  if maximum = 0 then .error .protocol
  else
    match reader.readUntil newline (maximum + 1) with
    | none => .error .unavailable
    | some (line, reader) =>
      if line.isEmpty then .error .unavailable
      else if maximum < line.length || line.getLast? ≠ some newline then .error .protocol
      else .ok (line, reader)

/-- A line that is read is the beginning of what was left. -/
theorem readBoundedLine_eq_ok {maximum : ℕ} {reader reader' : Source UInt8} {line : Bytes}
    (h : readBoundedLine maximum reader = .ok (line, reader')) :
    reader.content = line ++ reader'.content ∧ 0 < line.length ∧ line.length ≤ maximum := by
  unfold readBoundedLine at h
  split at h
  · cases h
  split at h
  · cases h
  rename_i line' other hread
  split at h
  · cases h
  rename_i hempty
  split at h
  · cases h
  rename_i hbad
  obtain ⟨rfl, rfl⟩ := Prod.mk.inj (Except.ok.inj h)
  simp only [Bool.or_eq_true, decide_eq_true_eq, not_or, not_lt] at hbad
  have hpos : 0 < line'.length := by
    rw [List.length_pos_iff]
    simpa using hempty
  exact ⟨Source.readUntil_append hread, hpos, hbad.1⟩

/-- Read the lines that end the stream, up to the empty one. -/
def readTrailers (remaining : ℕ) (reader : Source UInt8) :
    Except RelayTransportErrorKind (Source UInt8) :=
  match _ : readBoundedLine remaining reader with
  | .error e => .error e
  | .ok (trailer, reader) =>
    if trailer = crlf || trailer = [newline] then .ok reader
    else readTrailers (remaining - trailer.length) reader
termination_by remaining
decreasing_by
  have := readBoundedLine_eq_ok ‹_›
  omega

/-- Read the bytes of a chunk and the end of its line. -/
def readChunkData (size : ℕ) (reader : Source UInt8) :
    Except RelayTransportErrorKind (Bytes × Source UInt8) :=
  match reader.readExact size with
  | none => .error .unavailable
  | some (data, reader) =>
    match reader.readExact 2 with
    | none => .error .unavailable
    | some (terminator, reader) =>
      if terminator ≠ crlf then .error .protocol else .ok (data, reader)

/-- A response in chunks, and what was read of it. -/
structure ChunkedHttpResponse where
  reader : Source UInt8
  /-- What was read of the next frame. -/
  decoded : Bytes
  finished : Bool

/-- Read a chunk behind what is decoded, or the end of the stream. -/
def readChunk (response : ChunkedHttpResponse) :
    Except RelayTransportErrorKind ChunkedHttpResponse :=
  match readBoundedLine maximumChunkSizeLineBytes response.reader with
  | .error e => .error e
  | .ok (sizeLine, reader) =>
    match chunkSize sizeLine with
    | none => .error .protocol
    | some size =>
      if size = 0 then
        match readTrailers maximumStreamHeaderBytes reader with
        | .error e => .error e
        | .ok reader => .ok { response with reader, finished := true }
      else if maximumStreamFrameBytes < size ||
          maximumStreamFrameBytes < response.decoded.length + size then
        .error .protocol
      else
        match readChunkData size reader with
        | .error e => .error e
        | .ok (data, reader) => .ok { response with reader, decoded := response.decoded ++ data }

/-- How much there is to read at most. -/
def ChunkedHttpResponse.toRead (response : ChunkedHttpResponse) : ℕ :=
  if response.finished then 0 else response.reader.content.length + 1

/-- Reading a chunk leaves less to read. -/
theorem toRead_readChunk {response response' : ChunkedHttpResponse}
    (hfinished : response.finished = false) (h : readChunk response = .ok response') :
    response'.toRead < response.toRead := by
  unfold ChunkedHttpResponse.toRead
  unfold readChunk at h
  split at h
  · cases h
  rename_i sizeLine reader hline
  -- The size line takes at least one byte of the content.
  obtain ⟨hcontent, hpos, -⟩ := readBoundedLine_eq_ok hline
  have hlength := congrArg List.length hcontent
  rw [List.length_append] at hlength
  split at h
  · cases h
  split at h
  · split at h
    · cases h
    · obtain rfl := Except.ok.inj h
      simp [hfinished]
  split at h
  · cases h
  split at h
  · cases h
  rename_i data reader' hdata
  obtain rfl := Except.ok.inj h
  unfold readChunkData at hdata
  split at hdata
  · cases hdata
  rename_i data' reader₁ hexact
  split at hdata
  · cases hdata
  rename_i terminator reader₂ hterminator
  split at hdata
  · cases hdata
  obtain ⟨rfl, rfl⟩ := Prod.mk.inj (Except.ok.inj hdata)
  -- The data and its end are taken from what is left.
  have hfirst := congrArg List.length (Source.readExact_append hexact).1
  have hsecond := congrArg List.length (Source.readExact_append hterminator).1
  rw [List.length_append] at hfirst hsecond
  simp only [hfinished, Bool.false_eq_true, if_false]
  omega

/-- The next frame: a line of what is decoded, after as many chunks as it takes. -/
def readFrame {α : Type} (fromSlice : Bytes → Option α) (response : ChunkedHttpResponse) :
    Except RelayTransportErrorKind (α × ChunkedHttpResponse) :=
  match takeFrame newline response.decoded with
  | some (line, decoded) =>
    match fromSlice line with
    | none => .error .protocol
    | some value => .ok (value, { response with decoded })
  | none =>
    if _ : response.finished then .error .protocol
    else
      match _ : readChunk response with
      | .error e => .error e
      | .ok response => readFrame fromSlice response
termination_by response.toRead
decreasing_by exact toRead_readChunk (Bool.eq_false_of_not_eq_true ‹_›) ‹_›

end Mio.Relay.RelayTransport
