import Mathlib.Tactic.NormNum
import Mio.Desktop.RoomArtifacts

/-!
# What the artifact store gives back

Images are ingested one after the other, and each time the process can stop or a call can fail. What
an attempt leaves under a name that is free is `leftBody`: nothing, the whole content, or a start of
it. A name that is taken is never written again. So a content that was stored stays, and one of
which a start was left can never be stored (`artifacts_heal_iff`).
-/

namespace Mio.Desktop.RoomArtifacts

open Library

/-- An image that is ingested, with what befalls the steps. -/
structure Attempt where
  image : GeneratedImage
  faults : List Fault

/-- A step of the schedule is taken. -/
def proceeds : List Fault → Bool
  | .fail _ :: _ | .cut _ :: _ => false
  | _ => true

/-- What stays of a file that is removed because it could not be written. -/
def afterCleanup (body : Bytes) (faults : List Fault) : Option Bytes :=
  if proceeds faults then none else some body

/-- What an attempt leaves under a name that was free. -/
def leftBody (bytes : Bytes) (faults : List Fault) : Option Bytes :=
  if !proceeds faults then none
  else
    match faults.tail with
    | .cut n :: _ => some (bytes.take n)
    | .fail n :: rest => afterCleanup (bytes.take n) rest
    | written =>
      match written.tail with
      | .fail _ :: rest => afterCleanup bytes rest
      | _ => some bytes

/-- The file is created, and the process stops before all of it is written, or a write fails and the
file is not removed. -/
def Tears (size : ℕ) : List Fault → Prop
  | .proceed :: .cut n :: _ => n < size
  | .proceed :: .fail n :: rest => n < size ∧ proceeds rest = false
  | _ => False

/-- An attempt leaves a start of the content where it tears the file, and otherwise all or nothing.
-/
theorem leftBody_spec (bytes : Bytes) (faults : List Fault) :
    (Tears bytes.length faults → ∃ n < bytes.length, leftBody bytes faults = some (bytes.take n)) ∧
      (¬Tears bytes.length faults →
        leftBody bytes faults = none ∨ leftBody bytes faults = some bytes) := by
  -- A write that fails at the end has written everything.
  have hwhole : ∀ n, ¬n < bytes.length → bytes.take n = bytes := fun n hn =>
    List.take_of_length_le (Nat.le_of_not_lt hn)
  have hcleanup : ∀ rest, afterCleanup bytes rest = none ∨
    afterCleanup bytes rest = some bytes := by
    intro rest
    unfold afterCleanup
    split
    · exact .inl rfl
    · exact .inr rfl
  -- By the first two faults: that of the creation and that of the write; the third is of the
  -- removal.
  rcases faults with _ | ⟨_ | n | n, _ | ⟨_ | n | n, rest⟩⟩
  case cons.proceed.cons.fail =>
    show (n < bytes.length ∧ proceeds rest = false → _) ∧ (¬(n < bytes.length ∧ _) → _)
    have hleft : leftBody bytes (.proceed :: .fail n :: rest) =
      afterCleanup (bytes.take n) rest := rfl
    rw [hleft]
    constructor
    · rintro ⟨hlt, hfails⟩
      exact ⟨n, hlt, by rw [afterCleanup, hfails]; rfl⟩
    · intro hwritten
      by_cases hlt : n < bytes.length
      · have hremoved : proceeds rest = true := by simpa [hlt] using hwritten
        exact .inl (by rw [afterCleanup, hremoved, if_pos rfl])
      · rw [hwhole n hlt]
        exact hcleanup rest
  case cons.proceed.cons.cut =>
    show (n < bytes.length → _) ∧ (¬n < bytes.length → _)
    have hleft : leftBody bytes (.proceed :: .cut n :: rest) = some (bytes.take n) := rfl
    rw [hleft]
    exact ⟨fun hlt => ⟨n, hlt, rfl⟩, fun hlt => .inr (congrArg some (hwhole n hlt))⟩
  case cons.proceed.cons.proceed =>
    refine ⟨False.elim, fun _ => ?_⟩
    rcases rest with _ | ⟨_ | n | n, rest⟩
    · exact .inr rfl
    · exact .inr rfl
    · exact hcleanup rest
    · exact .inr rfl
  all_goals first
    | exact ⟨False.elim, fun _ => .inl rfl⟩
    | exact ⟨False.elim, fun _ => .inr rfl⟩

/-- A content that is in play, and that an image can have. -/
structure Accepted (known : Set Bytes) (bytes : Bytes) (kind : ImageKind) : Prop where
  known : bytes ∈ known
  size : bytes.length ≤ maximumBinaryFileBytes
  kind : imageKind bytes = some kind

section Store

variable {known : Set Bytes} (digest : Digest known) {bytes : Bytes}
    {kind : ImageKind} {files : Files}

/-- The name of the file of a content. -/
def destination (bytes : Bytes) (kind : ImageKind) : String :=
    fileName (artifactId digest bytes) kind

/-- A file that is there is compared, and stays. -/
theorem store_present {found : Bytes} (h : files (destination digest bytes kind) = some found)
    (faults : List Fault) :
    ((store digest bytes kind).run faults files).2 = files ∧
      (∀ id, ((store digest bytes kind).run faults files).1 = .done id →
        id = artifactId digest bytes ∧ found = bytes) ∧
      ((store digest bytes kind).run [] files).1 =
        if found = bytes then .done (artifactId digest bytes) else .error .invalid := by
  have hname : files (fileName (artifactId digest bytes) kind) = some found := h
  have hret : ∀ (result : Except RoomArtifactError Bytes)
      (next : Except RoomArtifactError Bytes → ArtifactProg String),
      (Prog.ret result : ArtifactProg _) >>= next = next result := fun _ _ => rfl
  rcases faults with _ | ⟨_ | n | n, rest⟩
  all_goals
    by_cases hsame : found = bytes
    all_goals
      simp [store, fileExists, readFile, Prog.gets_bind, Prog.tryStep_bind, Prog.step_bind,
        Prog.read_bind, Prog.attempt, Prog.ofOption, Prog.run, hret, hname, hsame]

/-- Under a free name, an attempt leaves what it has written. -/
theorem store_absent (h : files (destination digest bytes kind) = none) (faults : List Fault) :
    ((store digest bytes kind).run faults files).2 =
        Function.update files (destination digest bytes kind) (leftBody bytes faults) ∧
      (∀ id, ((store digest bytes kind).run faults files).1 = .done id →
        id = artifactId digest bytes ∧ leftBody bytes faults = some bytes) ∧
      ((store digest bytes kind).run [] files).1 = .done (artifactId digest bytes) := by
  have hname : files (fileName (artifactId digest bytes) kind) = none := h
  have hfree : Function.update files (fileName (artifactId digest bytes) kind) none = files :=
    Function.update_eq_self_iff.mpr h.symm
  -- Create, write, sync, or remove: one case for what befalls each of the steps.
  rcases faults with _ | ⟨_ | n | n, _ | ⟨_ | n | n, _ | ⟨_ | n | n, _ | ⟨_ | n | n, rest⟩⟩⟩⟩
  all_goals
    simp [store, destination, fileExists, createNew, removeFile, writeAll, syncAll, leftBody,
      afterCleanup, proceeds, Prog.gets_bind, Prog.tryStep_bind, Prog.onError_tryStep,
      Prog.onError_step, Prog.onError_ite, Prog.onError_throw, Prog.attempt_tryStep_bind,
      Prog.run_map, Prog.run, hname, hfree]

/-! ## Names -/

/-- A digest has at most 64 hexadecimal digits. -/
theorem hash_lt (bytes : Bytes) : (digest.hash bytes).val < 16 ^ 64 := by
  have hpow : 2 ^ 256 = 16 ^ 64 := by norm_num
  exact (digest.hash bytes).isLt.trans_eq hpow

/-- The content of an artifact is told by its id. -/
theorem artifactId_inj {other : Bytes} (hbytes : bytes ∈ known) (hother : other ∈ known)
    (h : artifactId digest bytes = artifactId digest other) : bytes = other := by
  have hdigits := congrArg asBytes h
  rw [artifactId, artifactId, asBytes_append, asBytes_append] at hdigits
  have hdigits := asBytes_inj (List.append_cancel_left hdigits)
  exact digest.injOn hbytes hother (Fin.ext
    (lowerHex_inj (by decide) (hash_lt digest bytes) (hash_lt digest other) hdigits))

/-- Every artifact identifier has the same length. -/
theorem utf8ByteSize_artifactId (bytes : Bytes) :
    (artifactId digest bytes).utf8ByteSize = artifactIdPrefix.utf8ByteSize + 64 := by
  rw [artifactId, String.utf8ByteSize_append,
    utf8ByteSize_lowerHex (by decide) (hash_lt digest bytes)]

/-- The id and the kind are told by the name of the file. -/
theorem fileName_inj {other : Bytes} {otherKind : ImageKind}
    (h : fileName (artifactId digest bytes) kind = fileName (artifactId digest other) otherKind) :
    artifactId digest bytes = artifactId digest other ∧ kind = otherKind := by
  have hbytes := congrArg asBytes h
  rw [fileName, fileName, String.append_assoc, String.append_assoc, asBytes_append,
    asBytes_append (artifactId digest other)] at hbytes
  have hlength : (asBytes (artifactId digest bytes)).length =
      (asBytes (artifactId digest other)).length := by
    rw [length_asBytes, length_asBytes, utf8ByteSize_artifactId, utf8ByteSize_artifactId]
  obtain ⟨hid, hextension⟩ := List.append_inj hbytes hlength
  have hkinds : ∀ a b : ImageKind, "." ++ a.extension = "." ++ b.extension → a = b := by
    intro a b
    cases a <;> cases b <;> decide
  exact ⟨asBytes_inj hid, hkinds _ _ (asBytes_inj hextension)⟩

/-- The identifier of a content is valid. -/
theorem validArtifactId_artifactId (bytes : Bytes) :
    validArtifactId (artifactId digest bytes) = true := by
  have hsize := utf8ByteSize_artifactId digest bytes
  have hdigit : ∀ d < 16, (String.utf8EncodeChar (Nat.digitChar d)).all isLowerHexDigit = true := by
    decide
  have hdigits : (asBytes (lowerHex 64 (digest.hash bytes).val)).all isLowerHexDigit = true := by
    refine List.all_eq_true.mpr fun byte hbyte => ?_
    rw [asBytes_eq_flatMap] at hbyte
    obtain ⟨c, hc, hbyte⟩ := List.mem_flatMap.mp hbyte
    obtain ⟨d, hd, rfl⟩ := mem_lowerHex hc
    exact List.all_eq_true.mp (hdigit d hd) byte hbyte
  have hdrop : (asBytes (artifactId digest bytes)).drop artifactIdPrefix.utf8ByteSize =
      asBytes (lowerHex 64 (digest.hash bytes).val) := by
    rw [artifactId, asBytes_append, ← length_asBytes, List.drop_left]
  have hstart :
    (asBytes artifactIdPrefix).isPrefixOf (asBytes (artifactId digest bytes)) = true := by
    rw [artifactId, asBytes_append, List.isPrefixOf_iff_prefix]
    exact List.prefix_append _ _
  rw [validArtifactId, hdrop, hdigits, hstart, hsize]
  simp

/-! ## Reading -/

/-- Every file is named after a content that is in play. -/
def Named (files : Files) : Prop :=
  ∀ name body, files name = some body →
    ∃ bytes kind, Accepted known bytes kind ∧ name = destination digest bytes kind

/-- Undisturbed, a file that is there is read. -/
theorem readFile_run {name : String} {content : Bytes} (h : files name = some content) :
    (readFile name).run [] files = (.done content, files) := by
  simp [readFile, Prog.tryStep_bind, Prog.gets_bind, Prog.run_step_nil, h]
  rfl

/-- A file that is the only one of its id is the one that is read. -/
theorem readKinds_run {id : String} (hid : artifactId digest bytes = id)
    (hsize : bytes.length ≤ maximumBinaryFileBytes) (hkind : imageKind bytes = some kind)
    (hfile : files (fileName id kind) = some bytes)
    (hothers : ∀ other, other ≠ kind → files (fileName id other) = none) {kinds : List ImageKind}
    (hmem : kind ∈ kinds) :
    (readKinds digest id kinds).run [] files = (.done (kind, bytes), files) := by
  induction kinds with
  | nil => exact absurd hmem List.not_mem_nil
  | cons other kinds ih =>
    by_cases hother : other = kind
    · subst hother
      have hread := readFile_run hfile
      have hfits : ¬maximumBinaryFileBytes < bytes.length := Nat.not_lt.mpr hsize
      simp [readKinds, fileExists, Prog.gets_bind, Prog.run_bind_nil,
        hread, hfile, hfits, hkind, hid]
    · have hnone := hothers other hother
      have hrest := ih ((List.mem_cons.mp hmem).resolve_left (Ne.symm hother))
      simp [readKinds, fileExists, Prog.gets_bind, hnone, hrest]

/-- A whole file is read back. -/
theorem read_back (hnamed : Named digest files) (haccepted : Accepted known bytes kind)
    (hfile : files (destination digest bytes kind) = some bytes) :
    (read digest (artifactId digest bytes)).run [] files = (.done (kind, bytes), files) := by
  have hmem : kind ∈ [ImageKind.png, .jpeg, .webp] := by
    cases kind <;> decide
  have hothers : ∀ other, other ≠ kind →
    files (fileName (artifactId digest bytes) other) = none := by
    intro other hother
    by_contra hsome
    obtain ⟨body, hbody⟩ := Option.ne_none_iff_exists'.mp hsome
    obtain ⟨content, contentKind, hcontent, hname⟩ := hnamed _ body hbody
    obtain ⟨hid, rfl⟩ := fileName_inj digest hname
    obtain rfl := artifactId_inj digest haccepted.known hcontent.known hid
    exact hother (Option.some_inj.mp (hcontent.kind.symm.trans haccepted.kind))
  have hread := readKinds_run digest rfl haccepted.size haccepted.kind hfile hothers hmem
  rw [read, validArtifactId_artifactId, Bool.not_true, if_neg Bool.false_ne_true]
  exact hread

/-! ## Runs -/

/-- The directory after an attempt. -/
def Attempt.apply (attempt : Attempt) (files : Files) : Files :=
  ((ingestGeneratedImage digest attempt.image).run attempt.faults files).2

/-- The directory after attempts that find it as it is given. -/
def afterRun (attempts : List Attempt) (files : Files) : Files :=
  attempts.foldl (fun files attempt => attempt.apply digest files) files

/-- What an attempt reads is in play. -/
def Attempt.Known (known : Set Bytes) (attempt : Attempt) : Prop :=
  ∀ content, attempt.image.content = some content → content ∈ known

/-- An attempt does not tear the file that it creates. -/
def Attempt.Untorn (attempt : Attempt) (files : Files) : Prop :=
  ∀ bytes kind, checkImage attempt.image = .ok (bytes, kind) →
    files (destination digest bytes kind) = none → ¬Tears bytes.length attempt.faults

/-- No attempt of a run tears the file that it creates. -/
def Untorn : List Attempt → Files → Prop
  | [], _ => True
  | attempt :: attempts, files =>
    attempt.Untorn digest files ∧ Untorn attempts (attempt.apply digest files)

/-- No file holds less than the content that it is named after. -/
def Whole (files : Files) : Prop :=
  ∀ bytes kind, Accepted known bytes kind →
    files (destination digest bytes kind) = none ∨
      files (destination digest bytes kind) = some bytes

variable {image : GeneratedImage} {attempt : Attempt} {attempts : List Attempt}

/-- An accepted image has its content read, within the limit and of a known kind. -/
theorem checkImage_ok (h : checkImage image = .ok (bytes, kind)) :
    image.content = some bytes ∧ bytes.length ≤ maximumBinaryFileBytes ∧
      imageKind bytes = some kind := by
  unfold checkImage at h
  repeat' split at h
  all_goals cases h
  exact ⟨‹_›, Nat.le_of_not_lt ‹_›, ‹_›⟩

/-- An image that is checked is stored. -/
theorem ingest_eq (h : checkImage image = .ok (bytes, kind)) :
    ingestGeneratedImage digest image = store digest bytes kind := by
  rw [ingestGeneratedImage, h]
  rfl

/-- An attempt changes nothing, or fills a name that was free. -/
theorem apply_cases (attempt : Attempt) (files : Files) :
    attempt.apply digest files = files ∨
      ∃ bytes kind, checkImage attempt.image = .ok (bytes, kind) ∧
        files (destination digest bytes kind) = none ∧
        attempt.apply digest files =
          Function.update files (destination digest bytes kind)
            (leftBody bytes attempt.faults) := by
  cases hcheck : checkImage attempt.image with
  | error e =>
    refine .inl ?_
    rw [Attempt.apply, ingestGeneratedImage, hcheck]
    rfl
  | ok checked =>
    obtain ⟨bytes, kind⟩ := checked
    have hingest := ingest_eq digest hcheck
    cases hfile : files (destination digest bytes kind) with
    | some found =>
      refine .inl ?_
      rw [Attempt.apply, hingest]
      exact (store_present digest hfile attempt.faults).1
    | none =>
      refine .inr ⟨bytes, kind, rfl, hfile, ?_⟩
      rw [Attempt.apply, hingest]
      exact (store_absent digest hfile attempt.faults).1

/-- A file stays as it is. -/
theorem apply_stays {name : String} {body : Bytes} (h : files name = some body)
    (attempt : Attempt) :
    attempt.apply digest files name = some body := by
  rcases apply_cases digest attempt files with hsame | ⟨bytes, kind, -, hfree, hfill⟩
  · rw [hsame, h]
  · have hne : name ≠ destination digest bytes kind := by
      rintro rfl
      rw [h] at hfree
      cases hfree
    rw [hfill, Function.update_of_ne hne, h]

/-- A file that is there stays as it is. -/
theorem afterRun_stays {name : String} {body : Bytes} (attempts : List Attempt)
    (h : files name = some body) : afterRun digest attempts files name = some body := by
  induction attempts generalizing files with
  | nil => exact h
  | cons attempt attempts ih => exact ih (apply_stays digest h attempt)

/-- What an attempt accepts is in play. -/
theorem Attempt.Known.accepted (hknown : attempt.Known known)
    (h : checkImage attempt.image = .ok (bytes, kind)) : Accepted known bytes kind := by
  obtain ⟨hcontent, hsize, hkind⟩ := checkImage_ok h
  exact ⟨hknown bytes hcontent, hsize, hkind⟩

/-- A file of an accepted content keeps the files named. -/
theorem named_update (hnamed : Named digest files) (haccepted : Accepted known bytes kind)
    (body : Option Bytes) :
    Named digest (Function.update files (destination digest bytes kind) body) := by
  intro name content hcontent
  by_cases hname : name = destination digest bytes kind
  · exact ⟨bytes, kind, haccepted, hname⟩
  · rw [Function.update_of_ne hname] at hcontent
    exact hnamed name content hcontent

/-- An attempt keeps the files named. -/
theorem apply_named (hnamed : Named digest files) (hknown : attempt.Known known) :
    Named digest (attempt.apply digest files) := by
  rcases apply_cases digest attempt files with hsame | ⟨bytes, kind, hcheck, -, hfill⟩
  · rwa [hsame]
  · rw [hfill]
    exact named_update digest hnamed (hknown.accepted hcheck) _

/-- A run keeps the files named, by induction on its attempts. -/
theorem afterRun_named (hnamed : Named digest files)
    (hknown : ∀ attempt ∈ attempts, attempt.Known known) :
    Named digest (afterRun digest attempts files) := by
  induction attempts generalizing files with
  | nil => exact hnamed
  | cons attempt attempts ih =>
    have hhead := apply_named digest hnamed (hknown attempt List.mem_cons_self)
    exact ih hhead fun next hnext => hknown next (List.mem_cons_of_mem _ hnext)

/-- An attempt that does not tear its file leaves whole files. -/
theorem apply_whole (hwhole : Whole digest files) (hknown : attempt.Known known)
    (huntorn : attempt.Untorn digest files) : Whole digest (attempt.apply digest files) := by
  rcases apply_cases digest attempt files with hsame | ⟨bytes, kind, hcheck, hfree, hfill⟩
  · rwa [hsame]
  · intro other otherKind hother
    rw [hfill]
    by_cases hname : destination digest other otherKind = destination digest bytes kind
    · obtain ⟨hid, rfl⟩ := fileName_inj digest hname
      obtain rfl := artifactId_inj digest hother.known (hknown.accepted hcheck).known hid
      rw [Function.update_self]
      exact (leftBody_spec other attempt.faults).2 (huntorn other otherKind hcheck hfree)
    · rw [Function.update_of_ne hname]
      exact hwhole other otherKind hother

/-- An attempt that tears its file leaves less than a content. -/
theorem apply_torn (hknown : attempt.Known known) (htorn : ¬attempt.Untorn digest files) :
    ∃ bytes kind body, Accepted known bytes kind ∧ body ≠ bytes ∧
      attempt.apply digest files (destination digest bytes kind) = some body := by
  unfold Attempt.Untorn at htorn
  push Not at htorn
  obtain ⟨bytes, kind, hcheck, hfree, htears⟩ := htorn
  obtain ⟨n, hlt, hleft⟩ := (leftBody_spec bytes attempt.faults).1 htears
  refine ⟨bytes, kind, bytes.take n, hknown.accepted hcheck, ?_, ?_⟩
  · intro hsame
    have hlength := congrArg List.length hsame
    rw [List.length_take] at hlength
    omega
  · rw [Attempt.apply, ingest_eq digest hcheck, (store_absent digest hfree attempt.faults).1,
      Function.update_self, hleft]

/-- Files are whole after a run if and only if no attempt of it tore one. -/
theorem afterRun_whole_iff (hwhole : Whole digest files)
    (hknown : ∀ attempt ∈ attempts, attempt.Known known) :
    Whole digest (afterRun digest attempts files) ↔ Untorn digest attempts files := by
  induction attempts generalizing files with
  | nil => exact iff_of_true hwhole trivial
  | cons attempt attempts ih =>
    have hhead := hknown attempt List.mem_cons_self
    by_cases huntorn : attempt.Untorn digest files
    · have hrest := ih (apply_whole digest hwhole hhead huntorn) fun next hnext =>
        hknown next (List.mem_cons_of_mem _ hnext)
      exact hrest.trans (and_iff_right huntorn).symm
    · refine iff_of_false (fun hend => ?_) fun hrun => huntorn hrun.1
      obtain ⟨bytes, kind, body, haccepted, hbody, hfile⟩ := apply_torn digest hhead huntorn
      have hstays : afterRun digest (attempt :: attempts) files (destination digest bytes kind) =
          some body := afterRun_stays digest attempts hfile
      rcases hend bytes kind haccepted with hnone | hsome
      · rw [hstays] at hnone
        cases hnone
      · rw [hstays] at hsome
        exact hbody (Option.some_inj.mp hsome)

/-- An image is stored and read back if and only if its file is missing or whole. -/
theorem ingest_heals_iff (hnamed : Named digest files) (haccepted : Accepted known bytes kind)
    (hcheck : checkImage image = .ok (bytes, kind)) :
    (∃ after, (ingestGeneratedImage digest image).run [] files =
          (.done (artifactId digest bytes), after) ∧
        (read digest (artifactId digest bytes)).run [] after = (.done (kind, bytes), after)) ↔
      files (destination digest bytes kind) = none ∨
        files (destination digest bytes kind) = some bytes := by
  rw [ingest_eq digest hcheck]
  constructor
  · rintro ⟨after, hstored, -⟩
    cases hfile : files (destination digest bytes kind) with
    | none => exact .inl rfl
    | some found =>
      have hdone := (store_present digest hfile []).2.1 (artifactId digest bytes)
      rw [hstored] at hdone
      exact .inr (congrArg some (hdone rfl).2)
  · rintro (hnone | hsome)
    · obtain ⟨hafter, -, hdone⟩ := store_absent digest hnone []
      refine ⟨_, Prod.ext hdone hafter, ?_⟩
      exact read_back digest (named_update digest hnamed haccepted _) haccepted
        (Function.update_self _ _ _)
    · obtain ⟨hafter, -, hdone⟩ := store_present digest hsome []
      rw [if_pos rfl] at hdone
      exact ⟨files, Prod.ext hdone hafter, read_back digest hnamed haccepted hsome⟩

/-- An ingest that returned has stored the whole content under the id that it returned. -/
theorem ingest_done {faults : List Fault} {id : String}
    (hcheck : checkImage image = .ok (bytes, kind))
    (hdone : ((ingestGeneratedImage digest image).run faults files).1 = .done id) :
    id = artifactId digest bytes ∧
      Attempt.apply digest ⟨image, faults⟩ files (destination digest bytes kind) = some bytes := by
  have happly : Attempt.apply digest ⟨image, faults⟩ files =
      ((store digest bytes kind).run faults files).2 := by
    rw [Attempt.apply, ingest_eq digest hcheck]
  rw [ingest_eq digest hcheck] at hdone
  rw [happly]
  cases hfile : files (destination digest bytes kind) with
  | some found =>
    obtain ⟨hafter, hfound, -⟩ := store_present digest hfile faults
    obtain ⟨hid, hsame⟩ := hfound id hdone
    exact ⟨hid, by rw [hafter, hfile, hsame]⟩
  | none =>
    obtain ⟨hafter, hleft, -⟩ := store_absent digest hfile faults
    obtain ⟨hid, hbody⟩ := hleft id hdone
    exact ⟨hid, by rw [hafter, Function.update_self, hbody]⟩

/-- In every run on an empty directory the ids tell the contents apart, and what an ingest has
returned is read back and is stored already. Every content can be stored and read back at the end if
and only if no attempt tore its file. -/
theorem artifacts_heal_iff (attempts : List Attempt)
    (hknown : ∀ attempt ∈ attempts, attempt.Known known) :
    (∀ bytes ∈ known, ∀ other ∈ known,
        artifactId digest bytes = artifactId digest other → bytes = other) ∧
      (∀ before image faults later bytes kind id, attempts = before ++ ⟨image, faults⟩ :: later →
        checkImage image = .ok (bytes, kind) →
        ((ingestGeneratedImage digest image).run faults
          (afterRun digest before fun _ => none)).1 = .done id →
        (read digest id).run [] (afterRun digest attempts fun _ => none) =
            (.done (kind, bytes), afterRun digest attempts fun _ => none) ∧
          ∀ again, checkImage again = .ok (bytes, kind) →
            (ingestGeneratedImage digest again).run [] (afterRun digest attempts fun _ => none) =
              (.done id, afterRun digest attempts fun _ => none)) ∧
      ((∀ image bytes kind, checkImage image = .ok (bytes, kind) → bytes ∈ known →
          ∃ after, (ingestGeneratedImage digest image).run []
                (afterRun digest attempts fun _ => none) =
                  (.done (artifactId digest bytes), after) ∧
            (read digest (artifactId digest bytes)).run [] after = (.done (kind, bytes), after)) ↔
        Untorn digest attempts fun _ => none) := by
  have hempty : Named digest fun _ => none := by
    intro name body hbody
    cases hbody
  have hnamed := afterRun_named digest hempty hknown
  refine ⟨fun bytes hbytes other hother => artifactId_inj digest hbytes hother, ?_, ?_⟩
  · intro before image faults later bytes kind id hattempts hcheck hdone
    obtain ⟨rfl, hstored⟩ := ingest_done digest hcheck hdone
    -- The attempt is one of those whose images are known.
    have hmem : (⟨image, faults⟩ : Attempt) ∈ attempts := by
      rw [hattempts]
      exact List.mem_append_right before List.mem_cons_self
    have haccepted := (hknown _ hmem).accepted hcheck
    have hfile : afterRun digest attempts (fun _ => none) (destination digest bytes kind) =
        some bytes := by
      -- A file that is there stays, whatever the later attempts do.
      have hrun : afterRun digest attempts (fun _ => none) =
          afterRun digest later (Attempt.apply digest ⟨image, faults⟩
            (afterRun digest before fun _ => none)) := by
        rw [hattempts, afterRun, List.foldl_append]
        rfl
      rw [hrun]
      exact afterRun_stays digest later hstored
    refine ⟨read_back digest hnamed haccepted hfile, fun again hagain => ?_⟩
    obtain ⟨hafter, -, hsame⟩ := store_present digest hfile []
    rw [ingest_eq digest hagain]
    rw [if_pos rfl] at hsame
    exact Prod.ext hsame hafter
  -- The store starts whole, as it is empty.
  · have hstart : Whole digest fun _ => none := fun bytes kind _ => .inl rfl
    have hwhole := afterRun_whole_iff digest hstart hknown
    refine Iff.trans ⟨fun hheals bytes kind haccepted => ?_,
      fun hall image bytes kind hcheck hbytes => ?_⟩
      hwhole
    -- Some image has these bytes, so a store that heals every image heals this file.
    · have hcheck : checkImage ⟨true, true, true, some (true, bytes.length), some bytes⟩ =
          .ok (bytes, kind) := by
        simp [checkImage, Nat.not_lt.mpr haccepted.size, haccepted.kind]
      exact (ingest_heals_iff digest hnamed haccepted hcheck).mp
        (hheals _ bytes kind hcheck haccepted.known)
    · obtain ⟨-, hsize, hkind⟩ := checkImage_ok hcheck
      have haccepted : Accepted known bytes kind := ⟨hbytes, hsize, hkind⟩
      exact (ingest_heals_iff digest hnamed haccepted hcheck).mpr (hall bytes kind haccepted)

end Store

/-- The header of a PNG image, which is the whole of the image here. -/
def pngHeader : Bytes := [0x89, 0x50, 0x4e, 0x47, 0x0d, 0x0a, 0x1a, 0x0a]

/-- An image with a PNG header. -/
def pngImage : GeneratedImage := ⟨true, true, true, some (true, pngHeader.length), some pngHeader⟩

/-- The digest of the header has 256 bits. -/
theorem pngHash_lt :
    0x4c4b6a3be1314ab86138bef4314dde022e600960d8689a2c8f8631802d20dab6 < 2 ^ 256 := by decide

/-- The SHA-256 digest of the header. -/
def pngDigest : Digest {pngHeader} where
  hash := fun _ => ⟨0x4c4b6a3be1314ab86138bef4314dde022e600960d8689a2c8f8631802d20dab6, pngHash_lt⟩
  injOn := Set.injOn_singleton _ _

/-- A run whose first attempt fails, and removes its file. -/
theorem artifacts_heal_iff_png :
    ∃ after, (ingestGeneratedImage pngDigest pngImage).run []
          (afterRun pngDigest [⟨pngImage, [.proceed, .fail 3]⟩, ⟨pngImage, []⟩] fun _ => none) =
        (.done (artifactId pngDigest pngHeader), after) ∧
      (read pngDigest (artifactId pngDigest pngHeader)).run [] after =
        (.done (.png, pngHeader), after) := by
  have hcontent : ∀ faults, Attempt.Known {pngHeader} ⟨pngImage, faults⟩ := by
    intro faults content hcontent
    exact (Option.some_inj.mp hcontent).symm
  have hknown : ∀ attempt ∈ [(⟨pngImage, [.proceed, .fail 3]⟩ : Attempt), ⟨pngImage, []⟩],
      attempt.Known {pngHeader} := by
    intro attempt hattempt
    rcases List.mem_pair.mp hattempt with rfl | rfl
    · exact hcontent _
    · exact hcontent _
  refine (artifacts_heal_iff pngDigest _ hknown).2.2.mpr ⟨?_,
    ?_, trivial⟩ pngImage pngHeader .png rfl rfl
  · rintro bytes kind - - ⟨-, hkept⟩
    cases hkept
  · rintro bytes kind - - ⟨⟩

/-- The process stops while the header is written, and the image cannot be stored or read after it.
-/
theorem torn_artifact_stays :
    ((ingestGeneratedImage pngDigest pngImage).run []
        (afterRun pngDigest [⟨pngImage, [.proceed, .cut 3]⟩] fun _ => none)).1 = .error .invalid ∧
      ((read pngDigest (artifactId pngDigest pngHeader)).run []
        (afterRun pngDigest [⟨pngImage, [.proceed, .cut 3]⟩] fun _ => none)).1 =
          .error .invalid := by
  have hcheck : checkImage pngImage = .ok (pngHeader, .png) := rfl
  have hfile : afterRun pngDigest [⟨pngImage, [.proceed, .cut 3]⟩] (fun _ => none)
      (destination pngDigest pngHeader .png) = some (pngHeader.take 3) := by
    show Attempt.apply pngDigest ⟨pngImage, [.proceed, .cut 3]⟩ (fun _ => none) _ = _
    rw [Attempt.apply, ingest_eq pngDigest hcheck, (store_absent pngDigest rfl _).1,
      Function.update_self]
    rfl
  generalize afterRun pngDigest [⟨pngImage, [.proceed, .cut 3]⟩] (fun _ => none) = files at hfile ⊢
  constructor
  · rw [ingest_eq pngDigest hcheck, (store_present pngDigest hfile []).2.2]
    rfl
  · have hread := readFile_run hfile
    have hkind : imageKind (pngHeader.take 3) = none := rfl
    rw [destination] at hfile hread
    rw [read, validArtifactId_artifactId, Bool.not_true, if_neg Bool.false_ne_true]
    simp [readKinds, fileExists, Prog.gets_bind, Prog.run_bind_nil, hfile, hread, hkind]

end Mio.Desktop.RoomArtifacts
