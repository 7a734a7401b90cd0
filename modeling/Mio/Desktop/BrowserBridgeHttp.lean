import Mathlib.Logic.Function.Basic
import Mio.Library.Text

/-!
# The requests of the browser bridge

`read_request` of `apps/desktop/src-tauri/src/browser_bridge.rs`. A stream is the chunks that its
reads give, in any division. After the last of them a read gives nothing or fails, which is one to
the function. The sums of `usize` panic or wrap around as the build has it.
-/

namespace Mio.Desktop.BrowserBridgeHttp

open Library

/-- The greatest size of a request, in bytes. -/
def maximumHttpBytes : ℕ := 64000

/-- What one read gives. The buffer of a read has 4,096 bytes. -/
abbrev Chunk := { bytes : Bytes // bytes ≠ [] ∧ bytes.length ≤ 4096 }

/-- The bytes of a stream, whatever its chunks. -/
def bytesOf (stream : List Chunk) : Bytes := stream.flatMap (·.val)

/-- How reading a request can fail. -/
inductive HttpFailure where
  /-- The `Err(())` of the function. -/
  | invalid
  | panicked
  deriving DecidableEq

/-- A request that was read. -/
structure HttpRequest where
  method : String
  path : String
  headers : String → Option String
  body : Bytes

/-- The empty line after the headers. -/
def terminator : Bytes := [0x0d, 0x0a, 0x0d, 0x0a]

/-- Where the first empty line begins. -/
def findHeaderEnd : Bytes → Option ℕ
  | [] => none
  | byte :: bytes =>
    if terminator.isPrefixOf (byte :: bytes) then some 0 else (findHeaderEnd bytes).map (· + 1)

/-- The loop that reads up to the end of the header, with the buffer and what is left of the stream.
-/
def receiveHeader (buffer : Bytes) (stream : List Chunk) : Option (ℕ × Bytes × List Chunk) :=
  if maximumHttpBytes < buffer.length then none
  else
    match stream with
    | [] => none
    | chunk :: stream =>
      match findHeaderEnd (buffer ++ chunk.val) with
      | some index => some (index, buffer ++ chunk.val, stream)
      | none => receiveHeader (buffer ++ chunk.val) stream

/-- The loop that reads up to so many bytes. -/
def receiveBody (total : ℕ) (buffer : Bytes) (stream : List Chunk) : Option Bytes :=
  if total ≤ buffer.length then some buffer
  else
    match stream with
    | [] => none
    | chunk :: stream => receiveBody total (buffer ++ chunk.val) stream

/-! ## The header -/

/-- A text split at each `\r\n`. -/
def splitLines : List Char → List (List Char)
  | [] => [[]]
  | '\r' :: '\n' :: chars => [] :: splitLines chars
  | c :: chars =>
    match splitLines chars with
    | [] => [[c]]
    | line :: lines => (c :: line) :: lines

/-- The words of a line. -/
def splitWhitespace (chars : List Char) : List String :=
  ((chars.splitOnP isWhitespace).filter fun word => word ≠ []).map String.ofList

/-- `split_once(':')`. -/
def splitColon (line : List Char) : Option (List Char × List Char) :=
  if ':' ∈ line then
    some (line.takeWhile (· ≠ ':'), (line.dropWhile (· ≠ ':')).tail)
  else none

/-- The text with its ASCII letters in lower case. -/
def asciiLowercase (value : String) : String := .ofList (value.toList.map Char.toLower)

/-- The headers with one more line; an empty line adds nothing, one without a colon is refused. -/
def insertHeader (headers : String → Option String) (line : List Char) :
    Option (String → Option String) :=
  if line = [] then some headers
  else
    (splitColon line).map fun (name, value) =>
      Function.update headers (asciiLowercase (trim (.ofList name))) (some (trim (.ofList value)))

/-- The method, the path, and the headers. -/
def parseHead (header : String) : Option (String × String × (String → Option String)) :=
  match splitLines header.toList with
  | [] => none
  | requestLine :: lines =>
    match splitWhitespace requestLine with
    | [method, path, version] =>
      if version = "HTTP/1.1" then
        (lines.foldlM insertHeader fun _ => none).map fun headers => (method, path, headers)
      else none
    | _ => none

/-- `str::parse::<usize>`. -/
def parseUsize (value : String) : Option ℕ :=
  let digits := match value.toList with
    | '+' :: digits => digits
    | digits => digits
  if digits ≠ [] ∧ digits.all Char.isDigit then
    let number := digits.foldl (fun number c => 10 * number + (c.toNat - '0'.toNat)) 0
    if number < 2 ^ 64 then some number else none
  else none

/-- The length that the headers declare. -/
def contentLength (headers : String → Option String) : Option ℕ :=
  match headers "content-length" with
  | some value => parseUsize value
  | none => some 0

/-! ## The request -/

/-- A sum of `usize`. -/
def usizeAdd (overflowChecks : Bool) (a b : ℕ) : Except HttpFailure ℕ :=
  if a + b < 2 ^ 64 then .ok (a + b)
  else if overflowChecks then .error .panicked
  else .ok ((a + b) % 2 ^ 64)

/-- `&bytes[start..stop]`. -/
def slice (bytes : Bytes) (start stop : ℕ) : Except HttpFailure Bytes :=
  if start ≤ stop ∧ stop ≤ bytes.length then .ok ((bytes.drop start).take (stop - start))
  else .error .panicked

/-- What is missing makes the request invalid. -/
def orInvalid {α : Type} : Option α → Except HttpFailure α
  | some a => .ok a
  | none => .error .invalid

/-- The body, once the header is known. -/
def readBody (overflowChecks : Bool) (headerEnd contentLength : ℕ) (buffer : Bytes)
    (stream : List Chunk) : Except HttpFailure Bytes := do
  let bodyStart ← usizeAdd overflowChecks headerEnd 4
  let total ← usizeAdd overflowChecks bodyStart contentLength
  if maximumHttpBytes < total then throw .invalid
  else
    let buffer ← orInvalid (receiveBody total buffer stream)
    slice buffer bodyStart total

/-- Reads a request: its headers until the empty line, then as much body as they say. -/
def readRequest (overflowChecks : Bool) (stream : List Chunk) : Except HttpFailure HttpRequest := do
  let (headerEnd, buffer, stream) ← orInvalid (receiveHeader [] stream)
  let header ← slice buffer 0 headerEnd
  let header ← orInvalid (utf8Text header)
  let (method, path, headers) ← orInvalid (parseHead header)
  let contentLength ← orInvalid (contentLength headers)
  let body ← readBody overflowChecks headerEnd contentLength buffer stream
  return ⟨method, path, headers, body⟩

end Mio.Desktop.BrowserBridgeHttp
