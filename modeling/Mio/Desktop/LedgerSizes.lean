import Mio.Desktop.LedgerFiles
import Mio.Desktop.RoomOrchestrationFile

/-!
# What the limits on the ledgers leave room for

A persist checks the number of the records and the length of the file, and the operations check each
record. For the dispatch ledger the first and the last leave no file that is too long. For the
orchestration ledger they do, but only for records with many quotation marks and backslashes in
their session identifiers and times (`ledger_sizes`).
-/

namespace Mio.Desktop

open Library Library.JsonBytes Std

namespace RoomOrchestrationLedger

variable {serde : Serde PersistedFile} {held next : Records} {w : World}

/-- Without a fault, the renames succeed. -/
theorem replacePrimary_calm {pid sequence : ℕ} {body : Bytes} (hw : w.dir.Regular)
    (htemp : w.dir (.temp pid sequence) = some (.file body)) :
    (replacePrimary RoomOrchestrationLedgerError.io (.temp pid sequence)).wpCalm (fun _ _ => True)
      (fun _ _ => False) w := by
  rcases hw.primary with hp | ⟨primary, hp⟩ <;> rcases hw.backup with hb | ⟨backup, hb⟩ <;>
    simp [replacePrimary, keepPrimary, renameTemp, Prog.wpCalm_ite, Directory.has, Directory.isFile,
      Directory.put_apply, hp, hb, htemp]

/-- Without a fault, the check of a primary that is there succeeds. -/
theorem checkPrimary_calm (h : FileHolds serde held w.dir) {done : Unit → World → Prop}
    (hdone : done () w) :
    (checkPrimary serde).wpCalm done (fun _ _ => False) w := by
  rcases h.regular.primary with hp | ⟨primary, hp⟩
  · simp [checkPrimary, Prog.wpCalm_ite, Directory.has, hp, hdone]
  · rcases h.content with ⟨hnone, -⟩ | ⟨body, hcurrent, hne, hsize, hback⟩
    · simp [Directory.current_of_primary hp] at hnone
    obtain rfl : primary = body := by simpa [Directory.current_of_primary hp] using hcurrent
    simp [checkPrimary, readFile, readToEnd, Prog.wpCalm_ite, Directory.has, Directory.isFile, hp,
      hne, hsize, Prog.wpCalm_ofOption hback, hdone]

/-- Without a fault, the steps that follow the write of the temporary file succeed. -/
theorem written_calm (h : FileHolds serde held w.dir) {pid sequence : ℕ} {body : Bytes}
    (htemp : w.dir (.temp pid sequence) = some (.file body)) :
    (do
      Prog.refuse .invalid ((← pathExists .backup) && !(← pathIsFile .backup))
      checkPrimary serde
      replacePrimary .io (.temp pid sequence) : LedgerProg Unit).wpCalm (fun _ _ => True)
      (fun _ _ => False) w := by
  have hbackup : (w.dir.has .backup && !w.dir.isFile .backup) = false := by
    rcases h.regular.backup with hb | ⟨backup, hb⟩ <;> simp [Directory.has, Directory.isFile, hb]
  simp only [Prog.wpCalm_bind, wpCalm_pathExists, wpCalm_pathIsFile, Prog.wpCalm_refuse, hbackup]
  exact checkPrimary_calm h (replacePrimary_calm h.regular htemp)

/-- Without a fault, a persist of a file that is short enough returns. -/
theorem persist_calm (h : FileHolds serde held w.dir)
    (htemp : w.dir (.temp w.pid w.sequence) = none) (hcount : next.size ≤ maximumRecords)
    {body : Bytes} (hvec : serde.toVec (toPersisted next) = some body)
    (hsize : body.length ≤ maximumFileBytes) :
    ((persist serde next).run [] w).1 = .done () := by
  have hcount' : decide (maximumRecords < next.size) = false := by
    simp only [decide_eq_false_iff_not]
    omega
  have hsize' : decide (maximumFileBytes < body.length) = false := by
    simp only [decide_eq_false_iff_not]
    omega
  have hprimary : (w.dir.has .primary && !w.dir.isFile .primary) = false := by
    rcases h.regular.primary with hp | ⟨primary, hp⟩ <;> simp [Directory.has, Directory.isFile, hp]
  have hcalm : (persist serde next).wpCalm (fun _ _ => True) (fun _ _ => False) w := by
    simp only [persist, Prog.wpCalm_bind, wpCalm_quietStep, wpCalm_pathExists, wpCalm_pathIsFile,
      Prog.wpCalm_refuse, Prog.wpCalm_ofOption hvec, wpCalm_fetchAdd, Prog.wpCalm_gets, hprimary,
      hcount', hsize']
    refine Prog.wpCalm_onError ?_
    rw [Prog.wpCalm_bind, wpCalm_createNew, if_neg (by simp [Directory.has, htemp]), writeTemp,
      Prog.wpCalm_bind, Prog.wpCalm_bind, wpCalm_writeAll, wpCalm_quietStep]
    -- The temporary file is written, and the ledger's own files are as before.
    have hsame := (World.SameFiles.temp { w with sequence := w.sequence + 1 } w.pid w.sequence
      (some (.file []))).trans (World.SameFiles.temp _ w.pid w.sequence (some (.file body)))
    refine written_calm (h.kept ?_) (Directory.put_self _ _ _)
    exact (World.Kept.refl w).sameFiles ⟨hsame.primary, hsame.backup, hsame.corrupt⟩
  have hends := Prog.run_wpCalm _ w hcalm
  rcases hrun : (persist serde next).run [] w with ⟨_ | _ | _, w'⟩
  · rfl
  · rw [hrun] at hends
    exact hends.elim
  · rw [hrun] at hends
    exact hends.elim

/-- A persist that returns was of a file that is short enough. -/
theorem persist_done {faults : List Fault} (h : ((persist serde next).run faults w).1 = .done ()) :
    ∃ body, serde.toVec (toPersisted next) = some body ∧ body.length ≤ maximumFileBytes := by
  have hends := Prog.run_wp _ faults w (persist_wp serde next w)
  rcases hrun : (persist serde next).run faults w with ⟨_ | _ | _, w'⟩
  · rw [hrun] at hends
    obtain ⟨body, hvec, hsize, -⟩ := hends
    exact ⟨body, hvec, hsize⟩
  · simp [hrun] at h
  · simp [hrun] at h

/-- The quotation marks and backslashes fit in what the records' texts leave of the limit. -/
def EscapesFit (file : PersistedFile) : Prop :=
  fileEscapes file ≤ maximumFileBytes - fileSize file

/-- The length of the file is within the limit exactly if they do. -/
theorem length_fileBytes_le_iff (hsize : next.size ≤ maximumRecords)
    (hvalid : AllEntries (fun _ record => validateRecord record = .ok ()) next) :
    (fileBytes (toPersisted next)).length ≤ maximumFileBytes ↔ EscapesFit (toPersisted next) := by
  obtain ⟨hlength, hplain⟩ := length_fileBytes hsize hvalid
  have hmax : maximumFileBytes = 1048576 := rfl
  rw [hlength, EscapesFit]
  omega

end RoomOrchestrationLedger

/-- Records that pass their check, and are no more than the limit allows, are a file of the
dispatch ledger that is short enough, and persist. For the orchestration ledger, their texts are
short enough as well (954909 of 1048576 bytes), and the file is so exactly if the characters in
them that are escaped fit in the rest. -/
theorem ledger_sizes (dispatchSerde : Serde AiDispatchLedger.PersistedDispatchLedger)
    (dispatches : AiDispatchLedger.Records) (serde : Serde RoomOrchestrationLedger.PersistedFile)
    (held records : RoomOrchestrationLedger.Records) (w : World) :
    ((∀ file, dispatchSerde.toVec file = some (AiDispatchLedger.fileBytes file)) →
        dispatches.size ≤ AiDispatchLedger.maximumDispatchRecords →
        AllEntries (fun _ record => AiDispatchLedger.validateRecord record = .ok ()) dispatches →
        JsonStore.Clean w →
        (AiDispatchLedger.fileBytes (AiDispatchLedger.toPersisted dispatches)).length ≤
            AiDispatchLedger.maximumDispatchLedgerBytes ∧
          (((AiDispatchLedger.dispatchLedgerPersistence dispatchSerde).persist dispatches).run
            [] w).1 = .done ()) ∧
      ((∀ file, serde.toVec file = some (RoomOrchestrationLedger.fileBytes file)) →
        records.size ≤ RoomOrchestrationLedger.maximumRecords →
        AllEntries (fun _ record => RoomOrchestrationLedger.validateRecord record =
          .ok ()) records →
        RoomOrchestrationLedger.FileHolds serde held w.dir →
        w.dir (.temp w.pid w.sequence) = none →
        let file := RoomOrchestrationLedger.toPersisted records
        RoomOrchestrationLedger.fileSize file ≤ 954909 ∧
          ((RoomOrchestrationLedger.fileBytes file).length ≤
              RoomOrchestrationLedger.maximumFileBytes ↔ RoomOrchestrationLedger.EscapesFit file) ∧
          (((RoomOrchestrationLedger.persist serde records).run [] w).1 = .done () ↔
            RoomOrchestrationLedger.EscapesFit file)) := by
  constructor
  · intro hserde hsize hvalid hclean
    have hlength := AiDispatchLedger.length_fileBytes_le hsize hvalid
    have hrun : ∃ w', ((AiDispatchLedger.dispatchLedgerPersistence dispatchSerde).persist
        dispatches).run [] w = (.done (), w') ∧ JsonStore.Clean w' :=
      JsonStore.persist_run hclean (hserde _) hlength
    obtain ⟨w', hrun, -⟩ := hrun
    exact ⟨hlength, by rw [hrun]⟩
  -- The other ledger is within its limit up to the escapes, and it is written exactly then.
  · intro hserde hsize hvalid hheld htemp
    have hfits := RoomOrchestrationLedger.length_fileBytes_le_iff hsize hvalid
    refine ⟨(RoomOrchestrationLedger.length_fileBytes hsize hvalid).2, hfits, ?_, fun h => ?_⟩
    · intro hdone
      obtain ⟨body, hvec, hbody⟩ := RoomOrchestrationLedger.persist_done hdone
      obtain rfl := Option.some.inj ((hserde _).symm.trans hvec)
      exact hfits.mp hbody
    · exact RoomOrchestrationLedger.persist_calm hheld htemp hsize (hserde _) (hfits.mpr h)

/-! ## A ledger that is too large -/

namespace LedgerSizes.Sample

open RoomOrchestrationLedger Core.Conductor

/-- The hash can be undone, up to the byte that it takes in. -/
theorem fnvStep_inj {state state' : UInt64} {byte byte' : UInt8}
    (h : fnvStep state byte = fnvStep state' byte') :
    state ^^^ byte.toUInt64 = state' ^^^ byte'.toUInt64 := by
  have hinverse : (0x00000100000001b3 : UInt64) * 0xce965057aff6957b = 1 := by decide
  have hmul := congrArg (fun product : UInt64 => product * 0xce965057aff6957b) h
  simpa only [fnvStep, UInt64.mul_assoc, hinverse, UInt64.mul_one] using hmul

/-- Past the last eight bits, the byte does not matter. -/
theorem fnvStep_high {state state' : UInt64} {byte byte' : UInt8}
    (h : fnvStep state byte = fnvStep state' byte') : state >>> 8 = state' >>> 8 := by
  have hlow : ∀ byte : UInt8, byte.toUInt64 >>> 8 = 0 := by
    intro byte
    rw [← UInt64.toNat_inj, UInt64.toNat_shiftRight, UInt8.toNat_toUInt64]
    exact Nat.shiftRight_eq_zero _ _ byte.toNat_lt
  have hxor := congrArg (fun mixed : UInt64 => mixed >>> 8) (fnvStep_inj h)
  simpa only [UInt64.shiftRight_xor, hlow, UInt64.xor_zero] using hxor

/-- The letter with a number. -/
def letter (n : ℕ) : Char := Char.ofNat (0x41 + n)

/-- A room identifier of the greatest length. -/
def roomId : String := .ofList (List.replicate 128 'r')

/-- A message identifier of the greatest length. -/
def sourceMessageId : String := .ofList (List.replicate 128 'm')

/-- A session identifier of the greatest length, whose bytes are all escaped. -/
def sessionId : String := .ofList (List.replicate 256 '"')

/-- What the identifiers of the conductors begin with. -/
def conductor : String := .ofList (List.replicate 126 'c')

/-- The identifier of the conductor with a number. -/
def conductorId (n : ℕ) : String := conductor ++ .ofList [letter (n / 26), letter (n % 26)]

/-- The identifiers of the operation of a conductor. -/
def ids (n : ℕ) : ConductorOperationIds :=
  let operationId := stableIdentifier "conductor-operation-v1" [sourceMessageId, conductorId n]
  { operationId, finalMessageId := stableIdentifier "conductor-final-v1" [operationId] }

/-- The identifier of a delegation's target. -/
def target (ordinal : ℕ) : String := .ofList (List.replicate 127 't' ++ [letter ordinal])

/-- The link of a delegation. -/
def link (n ordinal : ℕ) : OrchestrationDelegationLink :=
  let parts := [(ids n).operationId, target ordinal, toString ordinal]
  { targetParticipantId := target ordinal
    messageId := stableIdentifier "conductor-delegation-v1" parts
    dispatchId := stableIdentifier "conductor-dispatch-v1" parts }

/-- A record whose session identifier is made of quotation marks. -/
def record (n : ℕ) : RoomOrchestrationRecord where
  operationId := (ids n).operationId
  roomId := roomId
  sourceMessageId := sourceMessageId
  conductorId := conductorId n
  conductorSessionId := some sessionId
  finalMessageId := (ids n).finalMessageId
  stage := .delegating
  delegations := [link n 0, link n 1, link n 2]
  updatedAt := "2026-08-01T00:00:00Z"

/-- The sizes of the texts that do not depend on the number. -/
theorem sizes :
    (asBytes conductor).length = 126 ∧ sourceMessageId.utf8ByteSize = 128 ∧
      roomId.utf8ByteSize = 128 ∧ sessionId.utf8ByteSize = 256 ∧ escapes sessionId = 256 ∧
      ∀ ordinal < 3, (target ordinal).utf8ByteSize = 128 := by
  decide +kernel

/-- The identifiers among them are valid, and the targets are distinct. -/
theorem identifiers :
    RoomOrchestrationLedger.validIdentifier conductor = true ∧
      Core.Conductor.validIdentifier sourceMessageId = true ∧
      RoomOrchestrationLedger.validIdentifier roomId = true ∧ validSessionId sessionId = true ∧
      (∀ ordinal < 3, Core.Conductor.validIdentifier (target ordinal) = true) ∧
      target 1 ≠ target 0 ∧ target 2 ≠ target 0 ∧ target 2 ≠ target 1 := by
  decide +kernel

/-- A letter is one byte. -/
theorem letter_bytes : ∀ n < 26, String.utf8EncodeChar (letter n) = [(0x41 + n).toUInt8] := by
  decide

/-- The bytes of a conductor's identifier. -/
theorem asBytes_conductorId {n : ℕ} (h : n < 676) :
    asBytes (conductorId n) =
      asBytes conductor ++ [(0x41 + n / 26).toUInt8, (0x41 + n % 26).toUInt8] := by
  rw [conductorId, asBytes_append, asBytes_eq_flatMap (.ofList _), String.toList_ofList,
    List.flatMap_cons, List.flatMap_singleton, letter_bytes _ (by omega), letter_bytes _ (by omega)]
  rfl

/-- A conductor's identifier has the greatest length. -/
theorem utf8ByteSize_conductorId {n : ℕ} (h : n < 676) : (conductorId n).utf8ByteSize = 128 := by
  rw [← length_asBytes, asBytes_conductorId h, List.length_append, sizes.1]
  rfl

/-- The first hash of an operation, from the state after what all of them have in common. -/
theorem first_lane {n : ℕ} (h : n < 676) :
    (lanes (hashedBytes [sourceMessageId, conductorId n])).1 =
      fnvStep (fnvStep 1536997752689678831 (0x41 + n / 26).toUInt8) (0x41 + n % 26).toUInt8 := by
  have hcommon :
    (toLeBytes 128 ++ asBytes sourceMessageId ++ (toLeBytes 128 ++ asBytes conductor)).foldl
      fnvStep 0xcbf29ce484222325 = 1536997752689678831 := by decide +kernel
  have hsource : sourceMessageId.utf8ByteSize = 128 := sizes.2.1
  have hbytes : hashedBytes [sourceMessageId, conductorId n] =
      toLeBytes 128 ++ asBytes sourceMessageId ++ (toLeBytes 128 ++ asBytes conductor) ++
        [(0x41 + n / 26).toUInt8, (0x41 + n % 26).toUInt8] := by
    simp only [hashedBytes, List.flatMap_cons, List.flatMap_nil, List.append_nil, hsource,
      utf8ByteSize_conductorId h, asBytes_conductorId h, List.append_assoc]
    rfl
  rw [lanes, hbytes, List.foldl_append, hcommon]
  rfl

/-- The operations are distinct. -/
theorem operationId_inj {n k : ℕ} (hn : n < 676) (hk : k < 676)
    (h : (ids n).operationId = (ids k).operationId) : n = k := by
  have hlane := congrArg Prod.fst (stableIdentifier_eq_iff.mp h)
  rw [first_lane hn, first_lane hk] at hlane
  have hspread : ∀ a < 26, ∀ b < 26,
      fnvStep 1536997752689678831 (0x41 + a).toUInt8 >>> 8 =
        fnvStep 1536997752689678831 (0x41 + b).toUInt8 >>> 8 → a = b := by decide
  have hhigh : n / 26 = k / 26 :=
    hspread _ (by omega) _ (by omega) (fnvStep_high hlane)
  have hlast : ∀ state : UInt64, ∀ a < 26, ∀ b < 26,
      fnvStep state (0x41 + a).toUInt8 = fnvStep state (0x41 + b).toUInt8 → a = b := by
    intro state a ha b hb hstep
    have hbytes : ∀ a < 26, ∀ b < 26,
        (0x41 + a).toUInt8.toUInt64 = (0x41 + b).toUInt8.toUInt64 → a = b := by decide
    refine hbytes a ha b hb ?_
    have hxor := congrArg (state ^^^ ·) (fnvStep_inj hstep)
    simpa only [← UInt64.xor_assoc, UInt64.xor_self, UInt64.zero_xor] using hxor
  rw [hhigh] at hlane
  have hlow : n % 26 = k % 26 := hlast _ _ (by omega) _ (by omega) hlane
  omega

/-- A conductor's identifier is valid. -/
theorem validIdentifier_conductorId {n : ℕ} (h : n < 676) :
    RoomOrchestrationLedger.validIdentifier (conductorId n) = true := by
  have hsize := utf8ByteSize_conductorId h
  rw [conductorId, String.utf8ByteSize_append] at hsize
  refine boundedBytes_append identifiers.1 (by omega) fun byte hbyte index _ => ?_
  rw [asBytes_eq_flatMap, String.toList_ofList, List.flatMap_cons, List.flatMap_singleton,
    letter_bytes _ (by omega), letter_bytes _ (by omega)] at hbyte
  have halphanumeric : ∀ a < 26, isAsciiAlphanumeric (0x41 + a).toUInt8 = true := by decide
  rw [Bool.or_eq_true]
  rw [List.singleton_append, List.mem_cons, List.mem_singleton] at hbyte
  rcases hbyte with rfl | rfl
  · exact .inl (halphanumeric _ (by omega))
  · exact .inl (halphanumeric _ (by omega))

/-- The delegations pass theirs. -/
theorem links_valid (n : ℕ) :
    RoomOrchestrationLedger.validateDelegations (record n) (record n).delegations = .ok () := by
  obtain ⟨-, -, -, -, htarget, hdistinct⟩ := identifiers
  have htarget' : ∀ ordinal < 3,
      RoomOrchestrationLedger.validIdentifier (target ordinal) = true := htarget
  have hids : ∀ ordinal < 3, (ids n).delegation (target ordinal) ordinal =
      .ok ⟨(link n ordinal).messageId, (link n ordinal).dispatchId⟩ := by
    intro ordinal hordinal
    rw [ConductorOperationIds.delegation, htarget ordinal hordinal, if_neg]
    · rfl
    · have hworkers : Core.Conductor.maximumWorkers = 3 := rfl
      simp only [Bool.not_true, Bool.false_or, decide_eq_true_eq]
      omega
  have hlink : ∀ ordinal < 3, ∀ seen : List String, target ordinal ∉ seen →
      ∀ rest, validateDelegationsFrom (ids n) (link n ordinal :: rest) ordinal seen =
        validateDelegationsFrom (ids n) rest (ordinal + 1) (target ordinal :: seen) := by
    intro ordinal hordinal seen hseen rest
    have htargets : (link n ordinal).targetParticipantId = target ordinal := rfl
    rw [validateDelegationsFrom, htargets, htarget' ordinal hordinal, hids ordinal hordinal]
    simp [hseen]
  change validateDelegationsFrom (ids n) [link n 0, link n 1, link n 2] 0 [] = _
  rw [hlink 0 (by decide) _ (by simp), hlink 1 (by decide) _ (by simp [hdistinct]),
    hlink 2 (by decide) _ (by simp [hdistinct]), validateDelegationsFrom]

/-- The records pass their check. -/
theorem record_valid {n : ℕ} (h : n < 676) : validateRecord (record n) = .ok () := by
  have hconductor := validIdentifier_conductorId h
  have hconductor' : Core.Conductor.validIdentifier (conductorId n) = true := hconductor
  have hoperation : RoomOrchestrationLedger.validIdentifier (ids n).operationId = true :=
    validIdentifier_stableIdentifier _ (by decide) (by decide)
  have hfinal : RoomOrchestrationLedger.validIdentifier (ids n).finalMessageId = true :=
    validIdentifier_stableIdentifier _ (by decide) (by decide)
  obtain ⟨-, hsource, hroom, hsession, -⟩ := identifiers
  have hderive : ConductorOperationIds.derive sourceMessageId (conductorId n) = .ok (ids n) := by
    simp [ConductorOperationIds.derive, hsource, hconductor', ids]
  have hupdated : validTimestamp "2026-08-01T00:00:00Z" = true := by decide
  have hsource' : RoomOrchestrationLedger.validIdentifier sourceMessageId = true := hsource
  have hworkers : ¬RoomOrchestrationLedger.maximumWorkers < 3 := by decide
  have hlinks := links_valid n
  simp only [record] at hlinks ⊢
  simp only [validateRecord, hoperation, hroom, hsource', hconductor, hfinal, hupdated, hderive,
    hlinks]
  simp [hworkers, hsession]

/-- The records of the first conductors. -/
def records : ℕ → Records
  | 0 => ∅
  | n + 1 => (records n).insert (ids n).operationId (record n)

/-- The records are those of the first conductors. -/
theorem getElem?_records {n : ℕ} {id : String} {found : RoomOrchestrationRecord}
    (h : (records n)[id]? = some found) :
    ∃ k < n, id = (ids k).operationId ∧ found = record k := by
  induction n with
  | zero => simp [records] at h
  | succ n ih =>
    rw [records, getElem?_insert_eq_some] at h
    rcases h with ⟨hid, hfound⟩ | ⟨-, h⟩
    · exact ⟨n, by omega, hid, hfound⟩
    · obtain ⟨k, hk, hrest⟩ := ih h
      exact ⟨k, by omega, hrest⟩

/-- There are as many records as conductors. -/
theorem size_records {n : ℕ} (h : n ≤ 676) : (records n).size = n := by
  induction n with
  | zero => rfl
  | succ n ih =>
    have hfresh : (ids n).operationId ∉ records n := by
      intro hmem
      rw [ExtTreeMap.mem_iff_isSome_getElem?, Option.isSome_iff_exists] at hmem
      obtain ⟨found, hfound⟩ := hmem
      obtain ⟨k, hk, hid, -⟩ := getElem?_records hfound
      have := operationId_inj (by omega) (by omega) hid
      omega
    rw [records, ExtTreeMap.size_insert, if_neg (by simpa using hfresh), ih (by omega)]

/-- All of the records pass their check. -/
theorem records_valid {n : ℕ} (h : n ≤ 676) :
    AllEntries (fun _ record => validateRecord record = .ok ()) (records n) := by
  intro id found hfound
  obtain ⟨k, hk, -, rfl⟩ := getElem?_records hfound
  exact record_valid (by omega)

/-- How much of the file a record takes, with its escapes. -/
theorem size_record {n : ℕ} (h : n < 676) :
    recordSize (record n) + recordEscapes (record n) = 2074 := by
  obtain ⟨-, hsource, hroom, hsession, hmarks, htarget⟩ := sizes
  -- The fixed texts of a record have fixed sizes and no escapes.
  have hdate : "2026-08-01T00:00:00Z".utf8ByteSize = 20 ∧ escapes "2026-08-01T00:00:00Z" = 0 := by
    decide
  obtain ⟨hupdated, hnone⟩ := hdate
  have hkinds : "conductor-operation-v1".utf8ByteSize = 22 ∧
    "conductor-final-v1".utf8ByteSize = 18 ∧
      "conductor-delegation-v1".utf8ByteSize = 23 ∧ "conductor-dispatch-v1".utf8ByteSize = 21 := by
    decide
  obtain ⟨hoperation, hfinal, hdelegation, hdispatch⟩ := hkinds
  have hstage : (stageText .delegating).utf8ByteSize = 10 := by decide
  -- A link of the sample has three ids of known sizes.
  have hlink : ∀ ordinal < 3, linkSize (link n ordinal) = 295 := by
    intro ordinal hordinal
    have hmessage : (link n ordinal).messageId.utf8ByteSize = _ := utf8ByteSize_stableIdentifier _ _
    have hid : (link n ordinal).dispatchId.utf8ByteSize = _ := utf8ByteSize_stableIdentifier _ _
    have htext : (link n ordinal).targetParticipantId.utf8ByteSize = 128 := htarget ordinal hordinal
    rw [linkSize, hmessage, hid, htext, hdelegation, hdispatch]
  have hconductor : (record n).conductorId.utf8ByteSize = 128 := utf8ByteSize_conductorId h
  have hids : (record n).operationId.utf8ByteSize = _ ∧
    (record n).finalMessageId.utf8ByteSize = _ :=
    ⟨utf8ByteSize_stableIdentifier _ _, utf8ByteSize_stableIdentifier _ _⟩
  have hlinks : ((record n).delegations.map linkSize).sum = 885 := by
    show linkSize (link n 0) + (linkSize (link n 1) + (linkSize (link n 2) + 0)) = 885
    rw [hlink 0 (by decide), hlink 1 (by decide), hlink 2 (by decide)]
  have hcount : (record n).delegations.length = 3 := rfl
  have hroom' : (record n).roomId.utf8ByteSize = 128 := hroom
  have hsource' : (record n).sourceMessageId.utf8ByteSize = 128 := hsource
  have hstage' : (stageText (record n).stage).utf8ByteSize = 10 := hstage
  have hupdated' : (record n).updatedAt.utf8ByteSize = 20 := hupdated
  have hnone' : escapes (record n).updatedAt = 0 := hnone
  have hsession' : (record n).conductorSessionId = some sessionId := rfl
  rw [recordSize, recordEscapes, hsession', Option.elim_some, Option.elim_some, hsession, hmarks,
    hconductor, hids.1, hids.2, hlinks, hcount, hroom', hsource', hstage', hupdated', hnone',
    hoperation, hfinal]

/-- The size of the text of the first records. -/
theorem size_file {n : ℕ} (h : n ≤ 676) :
    fileSize (toPersisted (records n)) + fileEscapes (toPersisted (records n)) =
      30 + n * 2074 + (n - 1) := by
  have hcount : (toPersisted (records n)).records.length = n := by
    rw [toPersisted, List.length_map, ExtTreeMap.length_toList, size_records h]
  have hrecord : ∀ found ∈ (toPersisted (records n)).records,
      recordSize found + recordEscapes found = 2074 := by
    intro found hmem
    obtain ⟨⟨id, row⟩, hentry, hrow⟩ := List.mem_map.mp hmem
    obtain ⟨k, hk, -, hfound⟩ :=
      getElem?_records (ExtTreeMap.mem_toList_iff_getElem?_eq_some.mp hentry)
    have hsame : found = record k := hrow.symm.trans hfound
    rw [hsame]
    exact size_record (by omega)
  generalize toPersisted (records n) = file at hcount hrecord ⊢
  have hsum : (file.records.map recordSize).sum + (file.records.map recordEscapes).sum =
      file.records.length * 2074 := by
    rw [← List.sum_map_add, List.map_congr_left hrecord, List.map_const', List.sum_replicate,
      smul_eq_mul]
  rw [fileSize, fileEscapes]
  omega

/-- A serializer that writes these bytes. -/
noncomputable def serde : Serde PersistedFile := .ofEncoding fun file => some (fileBytes file)

/-- An empty folder holds no records. -/
theorem fileHolds_empty : FileHolds serde ∅ (World.empty 7).dir :=
  ⟨⟨.inl rfl, .inl rfl⟩, .empty _, .inl ⟨rfl, rfl⟩⟩

/-- The escapes of 512 such records do not fit. -/
theorem escapes_many : ¬EscapesFit (toPersisted (records maximumRecords)) := by
  have hlimit : maximumRecords = 512 := rfl
  have hmax : maximumFileBytes = 1048576 := rfl
  have hfile := @size_file maximumRecords (by omega)
  have hplain := (length_fileBytes (size_records (by omega)).le (records_valid (by omega))).2
  rw [EscapesFit]
  omega

end LedgerSizes.Sample

open LedgerSizes.Sample RoomOrchestrationLedger

/-- The file of all of the records is too long. -/
theorem ledger_sizes_full :
    let file := toPersisted (records maximumRecords)
    fileSize file ≤ 954909 ∧ ((fileBytes file).length ≤ maximumFileBytes ↔ EscapesFit file) ∧
      (((persist serde (records maximumRecords)).run [] (World.empty 7)).1 = .done () ↔
        EscapesFit file) :=
  (ledger_sizes ⟨fun file => some (AiDispatchLedger.fileBytes file), fun _ => none⟩ ∅ serde ∅
    (records maximumRecords) (World.empty 7)).2 (fun _ => rfl) (size_records (by decide)).le
    (records_valid (by decide)) fileHolds_empty rfl

/-- Records that pass their check, and are no more than the limit allows, do not persist, since
their file is too long. -/
theorem valid_records_too_long :
    (records maximumRecords).size ≤ maximumRecords ∧
      AllEntries (fun _ record => validateRecord record = .ok ()) (records maximumRecords) ∧
      ¬(fileBytes (toPersisted (records maximumRecords))).length ≤ maximumFileBytes ∧
      ((persist serde (records maximumRecords)).run [] (World.empty 7)).1 ≠ .done () := by
  have hsize : (records maximumRecords).size ≤ maximumRecords := (size_records (by decide)).le
  have hvalid := @records_valid maximumRecords (by decide)
  have hlong : ¬(fileBytes (toPersisted (records maximumRecords))).length ≤ maximumFileBytes :=
    mt (length_fileBytes_le_iff hsize hvalid).mp escapes_many
  refine ⟨hsize, hvalid, hlong, fun hdone => ?_⟩
  obtain ⟨body, hvec, hbody⟩ := persist_done hdone
  obtain rfl := Option.some.inj hvec
  exact hlong hbody

end Mio.Desktop
