import Mio.Relay.RelayProtocol
import Mio.Relay.RelayTransportFrames

/-!
# Serving the requests of a relay connection

The loop of `apps/desktop/src-tauri/src/relay_product.rs` over the frames of a connection. What it
meets in a round is given to it (`Round`): the rooms as they are then, whether the connection has
been cancelled, and whether the write fails. The bytes that come in may be split anywhere.

The loop answers the first requests, each once and in their order, up to the first that has a reason
to end the connection, and it ends with that reason (`serve_session`). Neither the loop nor the set
of the identifiers that it has seen is in that statement.
-/

namespace Mio.Relay.RelayProduct

open Library Mio.Core RelayTransport RelayProtocol

/-! ## The loop -/

/-- What one round of the loop meets. -/
structure Round where
  /-- The connection has been shut down when a read fails. -/
  shutdownAtRead : Bool
  /-- The task has been cancelled when a frame has been read. -/
  cancelledAtRead : Bool
  rooms : RoomSnapshot
  /-- The task has been cancelled when the response is to be written. -/
  cancelledAtWrite : Bool
  /-- The write fails, and so many bytes of the chunk go out before. -/
  failsAfter : Option ℕ
  /-- The connection has been shut down when a write fails. -/
  shutdownAtWrite : Bool

/-- What comes of the id of a request. -/
inductive RequestRegistration where
  | accepted
  | duplicate
  | limitReached

/-- Remembers the id of a request, unless it is known or there are too many. -/
def registerRequestId (requestIds : List String) (requestId : String) :
    RequestRegistration × List String :=
  if requestIds.contains requestId then (.duplicate, requestIds)
  else if relayMaximumRequestsPerConnection ≤ requestIds.length then (.limitReached, requestIds)
  else (.accepted, requestId :: requestIds)

/-- The error that a request is answered with. -/
structure RequestRouteError where
  code : RelayResponseErrorCode
  message : String

/-- The error of a method that is not the supported one. -/
def unsupportedMethod : RequestRouteError :=
  ⟨.unsupportedMethod, "The requested Desktop method is not supported."⟩

/-- The error of parameters that cannot be read. -/
def invalidParameters : RequestRouteError :=
  ⟨.invalidRequest, "The Room request parameters are invalid."⟩

/-- The error of a request that cannot be read. -/
def invalidRequest : RequestRouteError := ⟨.invalidRequest, "The Relay request is invalid."⟩

/-- The error of a request whose id is known. -/
def duplicateRequest : RequestRouteError :=
  ⟨.duplicateRequest, "The Relay request ID was already handled."⟩

/-- Reads the page that a request asks for. -/
def routeRequest (request : RelayRequestFrame) (rooms : RoomSnapshot) :
    Except RequestRouteError RoomReadResult :=
  if request.method != relayReadRoomMethod then .error unsupportedMethod
  else
    match request.readRoomParams with
    | .error .invalidReadRoomParams => .error invalidParameters
    | .error .invalidFrame | .error .invalidRequestId => .error invalidRequest
    | .ok params =>
      match RoomReadQuery.tryNew params.roomId params.afterMessageId params.limit with
      | .error _ => .error invalidParameters
      | .ok query => .ok (readRoom rooms query)

/-- An error of the connection, which may come from its shutdown. -/
def connectionError (shutdown : Bool) (kind : RelayTransportErrorKind) : RelayConnectionErrorCode :=
  (if shutdown then RelayTransportErrorKind.cancelled else kind).safeErrorCode

/-- The bytes that go out for a response, and the error of the write. -/
def writeFrame (round : Round) (response : RelayResponseFrame) :
    Bytes × Option RelayConnectionErrorCode :=
  match writeJsonChunk (some response.text) with
  | .error e => ([], some (connectionError round.shutdownAtWrite e))
  | .ok bytes =>
    match round.failsAfter with
    | none => (bytes, none)
    | some n => (bytes.take n, some (connectionError round.shutdownAtWrite .unavailable))

/-- Answers a request with an error. -/
def writeErrorResponse (round : Round) (requestId : String) (error : RequestRouteError) :
    Bytes × Option RelayConnectionErrorCode :=
  if round.cancelledAtWrite then ([], some .cancelled)
  else writeFrame round (.error requestId error.code error.message)

/-- What is left of a round once its response is written. -/
def goOn (requestIds : List String) (written : Bytes × Option RelayConnectionErrorCode) :
    Bytes × Except RelayConnectionErrorCode (List String) :=
  (written.1, written.2.elim (.ok requestIds) .error)

/-- A round of the loop, once a frame has been read. -/
def serveRequest (round : Round) (requestIds : List String) (value : Value) :
    Bytes × Except RelayConnectionErrorCode (List String) :=
  if round.cancelledAtRead then ([], .error .cancelled)
  else
    match RelayRequestFrame.parse value with
    | .error _ => ([], .error .protocol)
    | .ok request =>
      match registerRequestId requestIds request.requestId with
      | (.duplicate, requestIds) =>
        goOn requestIds (writeErrorResponse round request.requestId duplicateRequest)
      | (.limitReached, _) => ([], .error .protocol)
      | (.accepted, requestIds) =>
        match routeRequest request round.rooms with
        | .error e => goOn requestIds (writeErrorResponse round request.requestId e)
        | .ok result =>
          if round.cancelledAtWrite then ([], .error .cancelled)
          else goOn requestIds (writeFrame round (.success request.requestId result))

/-- Reading a chunk takes its bytes from the reader. -/
theorem length_readChunkData {size : ℕ} {reader reader' : Source UInt8} {data : Bytes}
    (h : readChunkData size reader = .ok (data, reader')) :
    data.length + reader'.content.length ≤ reader.content.length := by
  unfold readChunkData at h
  split at h
  · cases h
  rename_i taken reader₁ htaken
  split at h
  · cases h
  rename_i terminator reader₂ hterminator
  split at h
  · cases h
  obtain ⟨rfl, rfl⟩ := Prod.mk.inj (Except.ok.inj h)
  have hfirst := congrArg List.length (Source.readExact_append htaken).1
  have hsecond := congrArg List.length (Source.readExact_append hterminator).1
  rw [List.length_append] at hfirst hsecond
  omega

/-- How much of the stream there is to come. -/
def unread (response : ChunkedHttpResponse) : ℕ := response.decoded.length + response.toRead

/-- Reading a chunk leaves less unread. -/
theorem unread_readChunk {response response' : ChunkedHttpResponse}
    (hfinished : response.finished = false) (h : readChunk response = .ok response') :
    unread response' < unread response := by
  unfold unread ChunkedHttpResponse.toRead
  unfold readChunk at h
  split at h
  · cases h
  rename_i sizeLine reader hline
  obtain ⟨hcontent, hpos, -⟩ := readBoundedLine_eq_ok hline
  have hlength := congrArg List.length hcontent
  rw [List.length_append] at hlength
  split at h
  · cases h
  split at h
  · split at h
    · cases h
    · obtain rfl := Except.ok.inj h
      simp [hfinished]
  split at h
  · cases h
  split at h
  · cases h
  rename_i data reader' hdata
  obtain rfl := Except.ok.inj h
  -- The bytes of the chunk move from the reader to what is decoded.
  have hmoved := length_readChunkData hdata
  simp only [hfinished, Bool.false_eq_true, if_false, List.length_append]
  omega

/-- Taking a frame leaves less in the buffer. -/
theorem takeFrame_length {buffer line rest : Bytes}
    (h : takeFrame newline buffer = some (line, rest)) :
    rest.length < buffer.length := by
  obtain ⟨index, hindex, hsplit⟩ := Option.map_eq_some_iff.mp h
  obtain ⟨-, rfl⟩ := Prod.mk.inj hsplit
  obtain ⟨hlt, -⟩ := List.idxOf?_eq_some_iff.mp hindex
  rw [List.length_drop]
  omega

/-- Reading a frame leaves less unread. -/
theorem unread_readFrame {fromSlice : Bytes → Option Value}
    {response response' : ChunkedHttpResponse}
    {value : Value} (h : readFrame fromSlice response = .ok (value, response')) :
    unread response' < unread response := by
  induction response using readFrame.induct fromSlice with
  | case1 response line decoded htake hnone =>
    rw [readFrame_of_takeFrame htake, hnone] at h
    cases h
  | case2 response line decoded htake value' hvalue =>
    rw [readFrame_of_takeFrame htake, hvalue] at h
    obtain ⟨-, rfl⟩ := Prod.mk.inj (Except.ok.inj h)
    have hshorter := takeFrame_length htake
    show decoded.length + ChunkedHttpResponse.toRead response < unread response
    unfold unread
    omega
  | case3 response htake hfinished =>
    rw [readFrame_of_finished htake hfinished] at h
    cases h
  | case4 response htake hfinished e hchunk =>
    rw [readFrame_of_readChunk htake (by simpa using hfinished), hchunk] at h
    cases h
  | case5 response htake hfinished later hchunk ih =>
    have hunfinished : response.finished = false := by simpa using hfinished
    rw [readFrame_of_readChunk htake hunfinished, hchunk] at h
    exact (ih h).trans (unread_readChunk hunfinished hchunk)

variable (fromSlice : Bytes → Option Value) (rounds : ℕ → Round)

/-- The bytes that go out, and the error that ends the connection. -/
def serveFrom (i : ℕ) (requestIds : List String) (response : ChunkedHttpResponse) :
    Bytes × RelayConnectionErrorCode :=
  match _h : readFrame fromSlice response with
  | .error e => ([], connectionError (rounds i).shutdownAtRead e)
  | .ok (value, response) =>
    match serveRequest (rounds i) requestIds value with
    | (written, .error code) => (written, code)
    | (written, .ok requestIds) =>
      let later := serveFrom (i + 1) requestIds response
      (written ++ later.1, later.2)
termination_by unread response
decreasing_by exact unread_readFrame ‹_›

/-- Serves the requests of a connection until it ends. -/
def serveRelayRequests (response : ChunkedHttpResponse) : Bytes × RelayConnectionErrorCode :=
  serveFrom fromSlice rounds 0 [] response

/-- The frames that come in, and the error behind them. -/
def incoming (response : ChunkedHttpResponse) : List Value × RelayTransportErrorKind :=
  match _h : readFrame fromSlice response with
  | .error e => ([], e)
  | .ok (value, response) =>
    let later := incoming response
    (value :: later.1, later.2)
termination_by unread response
decreasing_by exact unread_readFrame ‹_›

/-! ## What the loop does, without its state -/

/-- The identifiers of the requests among the frames. -/
def requestIds (frames : List Value) : List String :=
  frames.filterMap fun frame => (RelayRequestFrame.parse frame).toOption.map (·.requestId)

/-- The response to a request that comes behind others. -/
def answer (earlier : List String) (rooms : RoomSnapshot) (request : RelayRequestFrame) :
    RelayResponseFrame :=
  if request.requestId ∈ earlier then
    .error request.requestId duplicateRequest.code duplicateRequest.message
  else
    match routeRequest request rooms with
    | .error e => .error request.requestId e.code e.message
    | .ok result => .success request.requestId result

/-- The response to a frame, or the reason to end the connection without one. -/
def handled (round : Round) (earlier : List String) (frame : Value) :
    Except RelayConnectionErrorCode RelayResponseFrame :=
  if round.cancelledAtRead then .error .cancelled
  else
    match RelayRequestFrame.parse frame with
    | .error _ => .error .protocol
    | .ok request =>
      if request.requestId ∉ earlier ∧ relayMaximumRequestsPerConnection ≤ earlier.dedup.length then
        .error .protocol
      else if round.cancelledAtWrite then .error .cancelled
      else .ok (answer earlier round.rooms request)

/-- The bytes of a response on the connection. -/
def chunkBytes (response : RelayResponseFrame) : Bytes :=
  let line := response.text ++ [newline]
  asBytes (upperHex line.length) ++ crlf ++ line ++ crlf

/-- How a connection ends with the frame at an index, after the bytes of a response that was cut
off. -/
inductive Ends (rounds : ℕ → Round) (frames : List Value) (kind : RelayTransportErrorKind) (i : ℕ) :
    Bytes → RelayConnectionErrorCode → Prop
  /-- Nothing more can be read. -/
  | read (h : frames[i]? = none) :
    Ends rounds frames kind i [] (connectionError (rounds i).shutdownAtRead kind)
  /-- The frame is no request, or the task is cancelled, or there were too many requests. -/
  | refused {frame : Value} {code : RelayConnectionErrorCode} (h : frames[i]? = some frame)
    (hhandled : handled (rounds i) (requestIds (frames.take i)) frame = .error code) :
    Ends rounds frames kind i [] code
  /-- The response cannot be written, or not all of it. -/
  | write {frame : Value} {response : RelayResponseFrame} {cut : Bytes}
    {code : RelayConnectionErrorCode} (h : frames[i]? = some frame)
    (hhandled : handled (rounds i) (requestIds (frames.take i)) frame = .ok response)
    (hwrite : writeFrame (rounds i) response = (cut, some code)) :
    Ends rounds frames kind i cut code

/-- A connection on which the responses go out. -/
structure Session (rounds : ℕ → Round) (frames : List Value) (kind : RelayTransportErrorKind)
    (result : Bytes × RelayConnectionErrorCode) (responses : List RelayResponseFrame) : Prop where
  /-- Each response is the one to the request at its index, with the rooms of its round. -/
  answered : ∀ i response, responses[i]? = some response → ∃ frame, frames[i]? = some frame ∧
    handled (rounds i) (requestIds (frames.take i)) frame = .ok response ∧
      writeFrame (rounds i) response = (chunkBytes response, none)
  /-- Behind the responses comes what ends the connection. -/
  ends : ∃ cut, result.1 = responses.flatMap chunkBytes ++ cut ∧
    Ends rounds frames kind responses.length cut result.2

/-! ## The loop and its state -/

/-- The loop over the frames, without the stream that they come from. -/
def serveFrames (rounds : ℕ → Round) (kind : RelayTransportErrorKind) :
    ℕ → List String → List Value → Bytes × RelayConnectionErrorCode
  | i, _, [] => ([], connectionError (rounds i).shutdownAtRead kind)
  | i, requestIds, value :: values =>
    match serveRequest (rounds i) requestIds value with
    | (written, .error code) => (written, code)
    | (written, .ok requestIds) =>
      let later := serveFrames rounds kind (i + 1) requestIds values
      (written ++ later.1, later.2)

/-- The serving of a connection, one request after the other. -/
theorem serveFrom_eq (fromSlice : Bytes → Option Value) (rounds : ℕ → Round) (i : ℕ)
    (requestIds : List String) (response : ChunkedHttpResponse) :
    serveFrom fromSlice rounds i requestIds response =
      serveFrames rounds (incoming fromSlice response).2 i requestIds
        (incoming fromSlice response).1 := by
  induction i, requestIds, response using serveFrom.induct fromSlice rounds with
  | case1 i requestIds response e hread =>
    rw [serveFrom, incoming, hread]
    rfl
  | case2 i requestIds response value later hread written code hserve =>
    rw [serveFrom, incoming, hread]
    dsimp only
    rw [serveFrames, hserve]
  | case3 i requestIds response value later hread written ids hserve ih =>
    rw [serveFrom, incoming, hread]
    dsimp only
    rw [serveFrames, hserve]
    dsimp only
    rw [ih]

/-- The set of the identifiers that were seen. -/
structure Seen (requestIds earlier : List String) : Prop where
  distinct : requestIds.Nodup
  mem_iff : ∀ id, id ∈ requestIds ↔ id ∈ earlier

/-- As many ids are remembered as were different. -/
theorem Seen.length {requestIds earlier : List String} (h : Seen requestIds earlier) :
    requestIds.length = earlier.dedup.length := by
  refine List.Perm.length_eq ((List.perm_ext_iff_of_nodup h.distinct (List.nodup_dedup _)).mpr
    fun id => ?_)
  rw [h.mem_iff, List.mem_dedup]

/-- The set grows by an identifier that is new. -/
theorem Seen.insert {ids earlier : List String} (h : Seen ids earlier)
    {id : String} (hnew : id ∉ earlier) :
    Seen (id :: ids) (earlier ++ [id]) where
  distinct := List.nodup_cons.mpr ⟨fun hmem => hnew ((h.mem_iff id).mp hmem), h.distinct⟩
  mem_iff other := by
    rw [List.mem_cons, List.mem_append, List.mem_singleton, h.mem_iff]
    exact or_comm

/-- The set stays for an identifier that is not. -/
theorem Seen.same {ids earlier : List String} (h : Seen ids earlier)
    {id : String} (hthere : id ∈ earlier) :
    Seen ids (earlier ++ [id]) where
  distinct := h.distinct
  mem_iff other := by
    rw [h.mem_iff, List.mem_append, List.mem_singleton]
    exact ⟨.inl, fun hmem => hmem.elim (fun h => h) fun heq => heq ▸ hthere⟩

/-- The id of a frame that is a request. -/
theorem requestIds_request {frame : Value} {request : RelayRequestFrame}
    (h : RelayRequestFrame.parse frame = .ok request) :
    requestIds [frame] = [request.requestId] := by
  rw [requestIds, List.filterMap_cons, h]
  rfl

/-- A round without its set: either it ends the connection, or the response is written, and the set
is again the one of the requests so far. -/
theorem serveRequest_eq {round : Round} {ids earlier : List String}
    (h : Seen ids earlier) (frame : Value) :
    (∃ code, handled round earlier frame = .error code ∧
      serveRequest round ids frame = ([], .error code)) ∨
      ∃ response ids', handled round earlier frame = .ok response ∧
        Seen ids' (earlier ++ requestIds [frame]) ∧
          serveRequest round ids frame = goOn ids' (writeFrame round response) := by
  unfold handled serveRequest
  -- The checks come in the order of the source: cancellation, the frame, its identifier, the limit.
  by_cases hcancelled : round.cancelledAtRead = true
  · rw [if_pos hcancelled, if_pos hcancelled]
    exact .inl ⟨_, rfl, rfl⟩
  rw [if_neg hcancelled, if_neg hcancelled]
  rcases hparse : RelayRequestFrame.parse frame with e | request
  · exact .inl ⟨_, rfl, rfl⟩
  dsimp only
  rw [requestIds_request hparse]
  -- A repeated identifier is answered with an error, and not counted again.
  by_cases hthere : request.requestId ∈ earlier
  · have hcontains : ids.contains request.requestId = true :=
      List.contains_iff_mem.mpr ((h.mem_iff _).mpr hthere)
    rw [registerRequestId, if_pos hcontains, if_neg fun hnew => hnew.1 hthere]
    dsimp only
    rw [writeErrorResponse]
    by_cases hwrite : round.cancelledAtWrite = true
    · rw [if_pos hwrite, if_pos hwrite]
      exact .inl ⟨_, rfl, rfl⟩
    · rw [if_neg hwrite, if_neg hwrite]
      refine .inr ⟨_, ids, rfl, h.same hthere, ?_⟩
      rw [answer, if_pos hthere]
  have hcontains : ¬ ids.contains request.requestId = true := fun hmem =>
    hthere ((h.mem_iff _).mp (List.contains_iff_mem.mp hmem))
  rw [registerRequestId, if_neg hcontains, h.length]
  by_cases hlimit : relayMaximumRequestsPerConnection ≤ earlier.dedup.length
  · rw [if_pos hlimit, if_pos ⟨hthere, hlimit⟩]
    exact .inl ⟨_, rfl, rfl⟩
  rw [if_neg hlimit, if_neg fun hfull => hlimit hfull.2]
  dsimp only
  -- A response that could not be written ends the session, whatever it says.
  by_cases hwrite : round.cancelledAtWrite = true
  · rw [if_pos hwrite]
    refine .inl ⟨_, rfl, ?_⟩
    rcases routeRequest request round.rooms with e | result
    · dsimp only
      rw [writeErrorResponse, if_pos hwrite]
      rfl
    · exact if_pos hwrite
  · rw [if_neg hwrite]
    refine .inr ⟨_, _, rfl, h.insert hthere, ?_⟩
    rw [answer, if_neg hthere]
    rcases routeRequest request round.rooms with e | result
    · dsimp only
      rw [writeErrorResponse, if_neg hwrite]
    · exact if_neg hwrite

/-- A written response is one chunk. -/
theorem writeHttpChunk_line {response : RelayResponseFrame} {bytes : Bytes}
    (h : writeHttpChunk (response.text ++ [newline]) = .ok bytes) :
    bytes = chunkBytes response := by
  unfold writeHttpChunk at h
  split at h
  · cases h
  · exact (Except.ok.inj h).symm

/-- A response that is written goes out as one chunk. -/
theorem writeFrame_eq {round : Round} {response : RelayResponseFrame} {written : Bytes}
    (h : writeFrame round response = (written, none)) :
    written = chunkBytes response ∧ writeHttpChunk (response.text ++ [newline]) = .ok written := by
  unfold writeFrame at h
  split at h
  · cases h
  rename_i bytes hbytes
  split at h
  · obtain ⟨rfl, -⟩ := Prod.mk.inj h
    exact ⟨writeHttpChunk_line hbytes, hbytes⟩
  · cases h

/-- A response that is written fits into a frame. -/
theorem writeFrame_length {round : Round} {response : RelayResponseFrame} {written : Bytes}
    (h : writeFrame round response = (written, none)) :
    response.text.length < maximumStreamFrameBytes := by
  obtain ⟨chunk, hpayload, -⟩ := writeHttpChunk_eq_ok (writeFrame_eq h).2
  have hwithin := chunk.within
  rw [hpayload, List.length_append, List.length_singleton] at hwithin
  exact hwithin

/-- The ids of two lists of frames. -/
theorem requestIds_append (frames more : List Value) :
    requestIds (frames ++ more) = requestIds frames ++ requestIds more := List.filterMap_append

/-- The ids before a frame. -/
theorem requestIds_take (before frames : List Value) (frame : Value) :
    requestIds ((before ++ frame :: frames).take before.length) = requestIds before := by
  rw [List.take_left]

/-- A session from a frame on. -/
theorem serveFrames_session (rounds : ℕ → Round) (kind : RelayTransportErrorKind)
    (before frames : List Value)
    {ids : List String} (hseen : Seen ids (requestIds before)) :
    ∃ responses : List RelayResponseFrame,
      (∀ i response, responses[i]? = some response → ∃ frame, frames[i]? = some frame ∧
        handled (rounds (before.length + i)) (requestIds (before ++ frames.take i)) frame =
          .ok response ∧
          writeFrame (rounds (before.length + i)) response = (chunkBytes response, none)) ∧
      ∃ cut, (serveFrames rounds kind before.length ids frames).1 =
        responses.flatMap chunkBytes ++ cut ∧
        Ends rounds (before ++ frames) kind (before.length + responses.length) cut
          (serveFrames rounds kind before.length ids frames).2 := by
  -- By induction on the frames, after any number of them.
  induction frames generalizing before ids with
  | nil =>
    refine ⟨[], by simp, [], rfl, ?_⟩
    exact .read (by simp)
  | cons frame frames ih =>
    have hframe : (before ++ frame :: frames)[before.length]? = some frame := by simp
    have htake := requestIds_take before frames frame
    rw [serveFrames]
    obtain ⟨code, hhandled, hserve⟩ | ⟨response, ids', hhandled, hseen', hserve⟩ :=
      @serveRequest_eq (rounds before.length) ids _ hseen frame
    -- The frame is refused, and the session ends with it.
    · rw [hserve]
      refine ⟨[], by simp, [], rfl, ?_⟩
      exact .refused hframe (htake.symm ▸ hhandled)
    rw [hserve]
    rcases hwrite : writeFrame (rounds before.length) response with ⟨written, _ | code⟩
    · obtain ⟨rfl, -⟩ := writeFrame_eq hwrite
      rw [← requestIds_append] at hseen'
      obtain ⟨responses, hanswered, cut, hwritten, hends⟩ := ih (before ++ [frame]) hseen'
      rw [List.length_append, List.length_singleton] at hanswered hwritten hends
      rw [List.append_assoc, List.singleton_append] at hends
      refine ⟨response :: responses, ?_, cut, ?_, ?_⟩
      · intro i later hlater
        cases i with
        | zero =>
          obtain rfl := Option.some.inj hlater
          exact ⟨frame, rfl, by simpa using hhandled, hwrite⟩
        | succ i =>
          obtain ⟨found, hfound, hthere, hsent⟩ := hanswered i later hlater
          have hindex : before.length + 1 + i = before.length + (i + 1) := by omega
          rw [hindex] at hthere hsent
          rw [List.append_assoc, List.singleton_append] at hthere
          exact ⟨found, hfound, hthere, hsent⟩
      · show chunkBytes response ++ _ = _
        rw [hwritten, List.flatMap_cons, List.append_assoc]
      · have hindex : before.length + (response :: responses).length =
          before.length + 1 + responses.length := by
          rw [List.length_cons]
          omega
        rw [hindex]
        exact hends
    -- The response is cut, and the session ends in the middle of it.
    · refine ⟨[], by simp, written, rfl, ?_⟩
      exact .write hframe (htake.symm ▸ hhandled) hwrite

/-- The requests are answered up to the first reason to end the connection. -/
theorem serveRelayRequests_session (fromSlice : Bytes → Option Value) (rounds : ℕ → Round)
    (response : ChunkedHttpResponse) :
    ∃ responses, Session rounds (incoming fromSlice response).1 (incoming fromSlice response).2
      (serveRelayRequests fromSlice rounds response) responses := by
  have hseen : Seen [] (requestIds []) := ⟨List.nodup_nil, fun _ => Iff.rfl⟩
  obtain ⟨responses, hanswered, hends⟩ :=
    serveFrames_session rounds (incoming fromSlice response).2 []
      (incoming fromSlice response).1 hseen
  simp only [List.length_nil, Nat.zero_add, List.nil_append] at hanswered hends
  refine ⟨responses, hanswered, ?_⟩
  rw [serveRelayRequests, serveFrom_eq]
  exact hends

/-! ## What the relay gets -/

/-- An answer has the id of its request. -/
theorem answer_requestId (earlier : List String) (rooms : RoomSnapshot)
    (request : RelayRequestFrame) :
    (answer earlier rooms request).requestId = request.requestId := by
  unfold answer
  split
  · rfl
  · split <;> rfl

/-- A frame with a response is a request, and there is room for its identifier. -/
theorem handled_eq_ok {round : Round} {earlier : List String}
    {frame : Value} {response : RelayResponseFrame}
    (h : handled round earlier frame = .ok response) :
    ∃ request, RelayRequestFrame.parse frame = .ok request ∧
      response = answer earlier round.rooms request ∧
        (request.requestId ∈ earlier ∨ earlier.dedup.length <
          relayMaximumRequestsPerConnection) := by
  unfold handled at h
  split at h
  · cases h
  split at h
  · cases h
  rename_i request hparse
  split at h
  · cases h
  rename_i hroom
  split at h
  · cases h
  refine ⟨request, hparse, (Except.ok.inj h).symm, ?_⟩
  by_contra hfull
  rw [not_or, not_lt] at hfull
  exact hroom hfull

/-- One more element is one more, unless it is there already. -/
theorem length_dedup_concat (l : List String) (a : String) :
    (l ++ [a]).dedup.length = if a ∈ l then l.dedup.length else l.dedup.length + 1 := by
  have hset : (l ++ [a]).toFinset = insert a l.toFinset := by
    ext b
    simp
  rw [← List.card_toFinset, ← List.card_toFinset, hset, Finset.card_insert_eq_ite]
  simp only [List.mem_toFinset]

section Session

variable {rounds : ℕ → Round} {frames : List Value} {kind : RelayTransportErrorKind}
  {result : Bytes × RelayConnectionErrorCode} {responses : List RelayResponseFrame}
  (h : Session rounds frames kind result responses)

include h

/-- The requests so far have the identifiers of the responses so far, and there are not too many. -/
theorem Session.identifiers {n : ℕ} (hn : n ≤ responses.length) :
    requestIds (frames.take n) = (responses.take n).map (·.requestId) ∧
      (requestIds (frames.take n)).dedup.length ≤ relayMaximumRequestsPerConnection := by
  induction n with
  | zero => exact ⟨rfl, Nat.zero_le _⟩
  | succ n ih =>
    obtain ⟨hids, hlimit⟩ := ih (by omega)
    have hresponse : responses[n]? = some responses[n] := List.getElem?_eq_getElem hn
    obtain ⟨frame, hframe, hhandled, -⟩ := h.answered n _ hresponse
    obtain ⟨request, hparse, hanswer, hroom⟩ := handled_eq_ok hhandled
    have htake : frames.take (n + 1) = frames.take n ++ [frame] := by
      rw [List.take_add_one, hframe, Option.toList_some]
    have hid : responses[n].requestId = request.requestId := by rw [hanswer, answer_requestId]
    rw [htake, requestIds_append, requestIds_request hparse]
    refine ⟨?_, ?_⟩
    · rw [List.take_add_one, hresponse, Option.toList_some, List.map_append,
        ← hids, List.map_singleton, hid]
    · rw [length_dedup_concat]
      split_ifs with hthere
      · exact hlimit
      · exact hroom.resolve_left hthere

/-- A request whose identifier was there before is told so. -/
theorem Session.repeated {i j : ℕ} (hij : i < j) {first later : RelayResponseFrame}
    (hfirst : responses[i]? = some first) (hlater : responses[j]? = some later)
    (hsame : first.requestId = later.requestId) :
    later = .error later.requestId duplicateRequest.code duplicateRequest.message := by
  obtain ⟨frame, hframe, hhandled, -⟩ := h.answered j later hlater
  obtain ⟨request, hparse, hanswer, -⟩ := handled_eq_ok hhandled
  have hid : later.requestId = request.requestId := by rw [hanswer, answer_requestId]
  have hj : j ≤ responses.length := (List.getElem?_eq_some_iff.mp hlater).1.le
  have hthere : request.requestId ∈ requestIds (frames.take j) := by
    rw [(h.identifiers hj).1, ← hid, ← hsame]
    refine List.mem_map_of_mem (List.mem_of_getElem? (i := i) ?_)
    rw [List.getElem?_take_of_lt hij, hfirst]
  rw [hanswer, answer, if_pos hthere]
  rfl

/-- The bytes of a response that went out are a chunk. -/
theorem Session.chunk {response : RelayResponseFrame} (hresponse : response ∈ responses) :
    ∃ chunk : Chunk, chunk.payload = response.text ++ [newline] ∧
      chunk.bytes = chunkBytes response := by
  obtain ⟨i, hi⟩ := List.getElem?_of_mem hresponse
  obtain ⟨_, _, _, hwrite⟩ := h.answered i response hi
  exact writeHttpChunk_eq_ok (writeFrame_eq hwrite).2

/-- The messages of a page that went out fit into a frame. -/
theorem Session.messages_lt {requestId : String} {page : RoomReadSuccess}
    (hpage : .success requestId (.success page) ∈ responses) :
    (page.room.messages.map fun message => (messageText message).length).sum <
      maximumStreamFrameBytes := by
  obtain ⟨i, hi⟩ := List.getElem?_of_mem hpage
  obtain ⟨_, _, _, hwrite⟩ := h.answered i _ hi
  exact (messages_le_response requestId page).trans_lt (writeFrame_length hwrite)

end Session

/-- A line that is sent as a chunk is the next frame, whatever follows. -/
theorem readFrame_chunk {line rest : Bytes} (hline : newline ∉ line) {chunk : Chunk}
    (hpayload : chunk.payload = line ++ [newline]) {response : ChunkedHttpResponse}
    (hunfinished : response.finished = false) (hempty : response.decoded = [])
    (hcontent : response.reader.content = chunk.bytes ++ rest) :
    ∃ reader, reader.content = rest ∧
      readFrame some response = .ok (line ++ [newline], ⟨reader, [], false⟩) := by
  have hchunk := readChunk_chunk hcontent
  rw [hempty, List.length_nil, Nat.zero_add, if_pos chunk.within] at hchunk
  obtain ⟨reader, hreader, hread⟩ := hchunk
  have hnone : takeFrame newline response.decoded = none := by rw [hempty]; rfl
  have htake : takeFrame newline chunk.payload = some (line ++ [newline], []) := by
    rw [hpayload, ← List.append_nil (line ++ [newline]), List.append_assoc]
    exact takeFrame_eq_some hline []
  refine ⟨reader, hreader, ?_⟩
  rw [readFrame_of_readChunk hnone hunfinished, hread]
  dsimp only
  rw [List.nil_append, hunfinished]
  exact readFrame_of_takeFrame htake

/-- Lines that are sent as chunks are the next frames, whatever follows. -/
theorem readFrames_chunks {responses : List RelayResponseFrame}
    (hchunks : ∀ response ∈ responses, ∃ chunk : Chunk,
      chunk.payload = response.text ++ [newline] ∧ chunk.bytes = chunkBytes response)
    {rest : Bytes} {peer : ChunkedHttpResponse} (hunfinished : peer.finished = false)
    (hempty : peer.decoded = [])
    (hcontent : peer.reader.content = responses.flatMap chunkBytes ++ rest) :
    (readFrames some responses.length peer).1 = responses.map fun response =>
      response.text ++ [newline] := by
  induction responses generalizing peer with
  | nil => rfl
  | cons response responses ih =>
    rw [List.forall_mem_cons] at hchunks
    obtain ⟨⟨chunk, hpayload, hbytes⟩, hchunks⟩ := hchunks
    rw [List.flatMap_cons, List.append_assoc, ← hbytes] at hcontent
    obtain ⟨reader, hreader, hread⟩ :=
      readFrame_chunk ((printed_response response).not_mem (by decide))
        hpayload hunfinished hempty hcontent
    rw [List.length_cons, readFrames, hread]
    dsimp only
    rw [@ih hchunks ⟨reader, [], false⟩ rfl rfl hreader, List.map_cons]

/-- What a connection does. -/
structure Served (rounds : ℕ → Round) (frames : List Value) (kind : RelayTransportErrorKind)
    (result : Bytes × RelayConnectionErrorCode) (responses : List RelayResponseFrame) : Prop where
  session : Session rounds frames kind result responses
  /-- The first requests are answered, in their order. -/
  inOrder : requestIds (frames.take responses.length) = responses.map (·.requestId)
  /-- Of the responses with one identifier, only the first is not the error for a duplicate. -/
  once : ∀ (i j : ℕ) (first later : RelayResponseFrame), i < j → responses[i]? = some first →
    responses[j]? = some later → first.requestId = later.requestId →
      later = .error later.requestId duplicateRequest.code duplicateRequest.message
  /-- There are not too many identifiers. -/
  limited : (responses.map (·.requestId)).dedup.length ≤ relayMaximumRequestsPerConnection
  /-- No page is sent whose messages alone fill a frame. -/
  fits : ∀ (requestId : String) (page : RoomReadSuccess),
    .success requestId (.success page) ∈ responses →
    (page.room.messages.map fun message => (messageText message).length).sum <
      maximumStreamFrameBytes
  /-- A reader of the transport's own kind reads the responses first, however the bytes come in at
  it. The relay is not in the repository, so its reader is taken to be like the one of the client.
  -/
  received : ∀ reader : Source UInt8, reader.content = result.1 →
    (readFrames some responses.length ⟨reader, [], false⟩).1 =
      responses.map fun response => response.text ++ [newline]

/-- Whatever comes in and however it is split, whatever the rooms are and whenever the connection is
cancelled or fails, the first requests are answered, each once and in their order, up to the first
that has a reason to end the connection. -/
theorem serve_session (fromSlice : Bytes → Option Value) (rounds : ℕ → Round)
    (response : ChunkedHttpResponse) :
    ∃ responses, Served rounds (incoming fromSlice response).1 (incoming fromSlice response).2
      (serveRelayRequests fromSlice rounds response) responses := by
  obtain ⟨responses, h⟩ := serveRelayRequests_session fromSlice rounds response
  obtain ⟨hids, hlimit⟩ := h.identifiers le_rfl
  rw [List.take_length] at hids
  rw [hids] at hlimit
  refine ⟨responses, h, hids, ?_, hlimit, fun _ _ hpage => h.messages_lt hpage, ?_⟩
  · intro i j first later hij hfirst hlater hsame
    exact h.repeated hij hfirst hlater hsame
  · intro reader hreader
    obtain ⟨cut, hwritten, -⟩ := h.ends
    rw [hwritten] at hreader
    exact readFrames_chunks (fun response hresponse => h.chunk hresponse) rfl rfl hreader

end Mio.Relay.RelayProduct
