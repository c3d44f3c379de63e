import Esdiag.Texts
import Mathlib.Data.List.Basic
import Mathlib.Tactic.Ring

/-!
The upload of a bundle in parts. A part is what one read of the file returned, and a
read may return less than was asked for. Whatever the reads return, the parts are the
file in order, but where a part begins and ends follows from the reads before it, so
that two uploads of one file agree on a part where the reads fill it.
-/
namespace Esdiag.UploadParts

/-- 50 MiB. -/
def chunkSize : ℕ := 50 * 1024 * 1024

/-- The number of bytes that a read may return at most: some, and as many as the buffer has
room for. -/
abbrev ReadLimit := { n : ℕ // 0 < n ∧ n ≤ chunkSize }

inductive Answer
  | status (code : ℕ)
  | transportError
  deriving DecidableEq, Repr

/-- Created, or a part that is stored already. -/
def Answer.accepted : Answer → Bool
  | .status code => code == 201 || code == 409
  | .transportError => false

/-- What a run meets: the file, its reads, of which `none` fails, and the answers to the parts
by their numbers. -/
structure Upload where
  content : List UInt8
  reads : ℕ → Option ReadLimit
  answers : ℕ → Answer

structure Part where
  url : String
  filename : String
  fileDigest : String
  number : ℕ
  partDigest : String
  body : List UInt8
  deriving DecidableEq

inductive SendError
  | invalidFileName
  | noTarget (code : ℕ)
  | read
  | transport
  | rejected (number code : ℕ)
  | notFinalized (code : ℕ)
  | response
  deriving DecidableEq, Repr

structure FinalizeResponse where
  slug : String
  token : String
  deriving DecidableEq, Repr

inductive Request
  | head (url : String)
  | part (part : Part)
  | finalize (url : String)
  deriving DecidableEq

theorem length_drop_lt {α : Type} {rest : List α} (limit : ReadLimit) (h : rest ≠ []) :
    (rest.drop limit.1).length < rest.length := by
  have hlimit := limit.2.1
  have hlength := List.length_pos_iff.mpr h
  rw [List.length_drop]
  omega

section Sending

variable (digest : List UInt8 → String)

/-- The parts of what is left of the file, from one read on, and how it ends. -/
def sendPartsFrom (upload : Upload) (url filename fileDigest : String) (k : ℕ)
    (rest : List UInt8) : List Part × Except SendError Unit :=
  match upload.reads k with
  | none => ([], .error .read)
  | some limit =>
    if rest = [] then ([], .ok ())
    else
      let body := rest.take limit.1
      let part : Part := ⟨url, filename, fileDigest, k + 1, digest body, body⟩
      match upload.answers (k + 1) with
      | .transportError => ([part], .error .transport)
      | .status code =>
        if code = 201 ∨ code = 409 then
          let later := sendPartsFrom upload url filename fileDigest (k + 1) (rest.drop limit.1)
          (part :: later.1, later.2)
        else ([part], .error (.rejected (k + 1) code))
termination_by rest.length
decreasing_by exact length_drop_lt limit ‹_›

def sendParts (upload : Upload) (url filename fileDigest : String) :
    List Part × Except SendError Unit :=
  sendPartsFrom digest upload url filename fileDigest 0 upload.content

/-- The bytes of the file as the digest takes them, one read after another. -/
def digestFrom (reads : ℕ → Option ReadLimit) (k : ℕ) (hashed rest : List UInt8) :
    Except SendError String :=
  match reads k with
  | none => .error .read
  | some limit =>
    if rest = [] then .ok (digest hashed)
    else digestFrom reads (k + 1) (hashed ++ rest.take limit.1) (rest.drop limit.1)
termination_by rest.length
decreasing_by exact length_drop_lt limit ‹_›

def normalizeUploadId (uploadId : String) : String :=
  let trimmed := String.ofList (uploadId.toList.rdropWhile (· == '/'))
  (Texts.split '/' trimmed).getLast?.getD uploadId

/-- The answers to the requests before and after the parts, and the reads of the digest. -/
structure Service where
  target : Answer
  digestReads : ℕ → Option ReadLimit
  finalized : Answer
  response : Option FinalizeResponse

def finalizeSend (service : Service) (url fileDigest : String) :
    Request × Except SendError FinalizeResponse :=
  (.finalize (url ++ "/" ++ fileDigest ++ "/_finalize"),
    match service.finalized with
    | .transportError => .error .transport
    | .status code =>
      if code = 200 then
        match service.response with
        | some response => .ok response
        | none => .error .response
      else .error (.notFinalized code))

/-- `send_file_to_elastic_upload_service`: the requests in order, and the result. -/
def sendFile (upload : Upload) (service : Service) (filename : Option String)
    (uploadId apiUrl : String) : List Request × Except SendError FinalizeResponse :=
  let url := apiUrl ++ "/api/uploads/" ++ normalizeUploadId uploadId
  match filename with
  | none => ([], .error .invalidFileName)
  | some filename =>
    match service.target with
    | .transportError => ([.head url], .error .transport)
    | .status code =>
      if code ≠ 200 then ([.head url], .error (.noTarget code))
      else
        match digestFrom digest service.digestReads 0 [] upload.content with
        | .error error => ([.head url], .error error)
        | .ok fileDigest =>
          let sent := sendParts digest upload url filename fileDigest
          match sent.2 with
          | .error error => (.head url :: sent.1.map .part, .error error)
          | .ok () =>
            let finalized := finalizeSend service url fileDigest
            (.head url :: sent.1.map .part ++ [finalized.1], finalized.2)

/-- The digest is of the whole file, however it was read. -/
theorem digestFrom_eq (reads : ℕ → Option ReadLimit) (k : ℕ) (hashed rest : List UInt8)
    {fileDigest : String} (h : digestFrom digest reads k hashed rest = .ok fileDigest) :
    fileDigest = digest (hashed ++ rest) := by
  induction hlength : rest.length using Nat.strong_induction_on generalizing k hashed rest with
  | _ length ih =>
    unfold digestFrom at h
    cases hread : reads k with
    | none => simp [hread] at h
    | some limit =>
      by_cases hrest : rest = []
      · subst hrest
        simpa [hread] using h.symm
      · simp only [hread, hrest, if_false] at h
        have hshorter : (rest.drop limit.1).length < length := by
          rw [← hlength]
          exact length_drop_lt limit hrest
        rw [ih _ hshorter _ _ _ h rfl, List.append_assoc, List.take_append_drop]

section Parts

variable {digest} {upload : Upload} {url filename fileDigest : String} {k : ℕ}
  {rest : List UInt8} {limit : ReadLimit}

/-- The part that a read begins. -/
def partOf (digest : List UInt8 → String) (url filename fileDigest : String) (k : ℕ)
    (rest : List UInt8) (limit : ReadLimit) : Part :=
  ⟨url, filename, fileDigest, k + 1, digest (rest.take limit.1), rest.take limit.1⟩

theorem sendPartsFrom_read_error (h : upload.reads k = none) :
    sendPartsFrom digest upload url filename fileDigest k rest = ([], .error .read) := by
  rw [sendPartsFrom, h]

theorem sendPartsFrom_nil (h : upload.reads k = some limit) :
    sendPartsFrom digest upload url filename fileDigest k [] = ([], .ok ()) := by
  rw [sendPartsFrom, h]
  rfl

theorem sendPartsFrom_accepted (h : upload.reads k = some limit) (hrest : rest ≠ [])
    (haccepted : (upload.answers (k + 1)).accepted = true) :
    sendPartsFrom digest upload url filename fileDigest k rest =
      (partOf digest url filename fileDigest k rest limit ::
          (sendPartsFrom digest upload url filename fileDigest (k + 1) (rest.drop limit.1)).1,
        (sendPartsFrom digest upload url filename fileDigest (k + 1) (rest.drop limit.1)).2) := by
  rw [sendPartsFrom, h]
  simp only [hrest, if_false]
  cases hanswer : upload.answers (k + 1) with
  | transportError => simp [hanswer, Answer.accepted] at haccepted
  | status code =>
    have hcode : code = 201 ∨ code = 409 := by simpa [hanswer, Answer.accepted] using haccepted
    simp only [hcode, if_true]
    rfl

theorem sendPartsFrom_refused (h : upload.reads k = some limit) (hrest : rest ≠ [])
    (hrefused : (upload.answers (k + 1)).accepted = false) :
    ∃ error, sendPartsFrom digest upload url filename fileDigest k rest =
      ([partOf digest url filename fileDigest k rest limit], .error error) := by
  rw [sendPartsFrom, h]
  simp only [hrest, if_false]
  cases hanswer : upload.answers (k + 1) with
  | transportError => exact ⟨_, rfl⟩
  | status code =>
    have hcode : ¬(code = 201 ∨ code = 409) := by
      simpa [hanswer, Answer.accepted, not_or] using hrefused
    simp only [hcode, if_false]
    exact ⟨_, rfl⟩

/-- A run of the loop, by how its first read and its first part end. -/
theorem sendPartsFrom_induct
    {motive : ℕ → List UInt8 → List Part × Except SendError Unit → Prop}
    (readError : ∀ k rest, upload.reads k = none → motive k rest ([], .error .read))
    (finished : ∀ k limit, upload.reads k = some limit → motive k [] ([], .ok ()))
    (refused : ∀ k rest limit error, upload.reads k = some limit → rest ≠ [] →
      (upload.answers (k + 1)).accepted = false →
      motive k rest ([partOf digest url filename fileDigest k rest limit], .error error))
    (accepted : ∀ k rest limit later, upload.reads k = some limit → rest ≠ [] →
      (upload.answers (k + 1)).accepted = true → motive (k + 1) (rest.drop limit.1) later →
      motive k rest (partOf digest url filename fileDigest k rest limit :: later.1, later.2))
    (k : ℕ) (rest : List UInt8) :
    motive k rest (sendPartsFrom digest upload url filename fileDigest k rest) := by
  induction hlength : rest.length using Nat.strong_induction_on generalizing k rest with
  | _ length ih =>
    cases hread : upload.reads k with
    | none =>
      rw [sendPartsFrom_read_error hread]
      exact readError k rest hread
    | some limit =>
      by_cases hrest : rest = []
      · subst hrest
        rw [sendPartsFrom_nil hread]
        exact finished k limit hread
      · cases hanswer : (upload.answers (k + 1)).accepted with
        | false =>
          obtain ⟨error, herror⟩ := @sendPartsFrom_refused digest upload url filename fileDigest
            k rest limit hread hrest hanswer
          rw [herror]
          exact refused k rest limit error hread hrest hanswer
        | true =>
          rw [sendPartsFrom_accepted hread hrest hanswer]
          have hshorter : (rest.drop limit.1).length < length := by
            rw [← hlength]
            exact length_drop_lt limit hrest
          exact accepted k rest limit _ hread hrest hanswer (ih _ hshorter _ _ rfl)

/-- The parts are a prefix of what is left, all of it when the loop ends well. -/
theorem prefix_of_sendPartsFrom (k : ℕ) (rest : List UInt8) :
    ∃ left, ((sendPartsFrom digest upload url filename fileDigest k rest).1.map Part.body).flatten
        ++ left = rest ∧
      ((sendPartsFrom digest upload url filename fileDigest k rest).2 = .ok () → left = []) := by
  refine sendPartsFrom_induct (motive := fun k rest sent =>
    ∃ left, (sent.1.map Part.body).flatten ++ left = rest ∧ (sent.2 = .ok () → left = []))
    ?readError ?finished ?refused ?accepted k rest
  case readError => exact fun k rest _ => ⟨rest, rfl, nofun⟩
  case finished => exact fun k limit _ => ⟨[], rfl, fun _ => rfl⟩
  case refused =>
    intro k rest limit error _ _ _
    refine ⟨rest.drop limit.1, ?_, nofun⟩
    simp [partOf]
  case accepted =>
    rintro k rest limit later _ _ _ ⟨left, hleft, hend⟩
    refine ⟨left, ?_, hend⟩
    rw [List.map_cons, List.flatten_cons, List.append_assoc, hleft]
    exact List.take_append_drop limit.1 rest

theorem sendPartsFrom_numbers (k : ℕ) (rest : List UInt8) :
    (sendPartsFrom digest upload url filename fileDigest k rest).1.map Part.number =
      List.range' (k + 1)
        (sendPartsFrom digest upload url filename fileDigest k rest).1.length := by
  refine sendPartsFrom_induct (motive := fun k _ sent =>
    sent.1.map Part.number = List.range' (k + 1) sent.1.length)
    ?readError ?finished ?refused ?accepted k rest
  case readError => exact fun _ _ _ => rfl
  case finished => exact fun _ _ _ => rfl
  case refused => exact fun _ _ _ _ _ _ _ => rfl
  case accepted =>
    intro k rest limit later _ _ _ ih
    rw [List.map_cons, ih, List.length_cons, List.range'_succ]
    rfl

theorem body_ne_nil_of_mem (k : ℕ) (rest : List UInt8) :
    ∀ part ∈ (sendPartsFrom digest upload url filename fileDigest k rest).1, part.body ≠ [] := by
  have hpart : ∀ (k : ℕ) {rest : List UInt8} (limit : ReadLimit), rest ≠ [] →
      (partOf digest url filename fileDigest k rest limit).body ≠ [] := by
    intro k rest limit hrest hbody
    rcases List.take_eq_nil_iff.mp hbody with hlimit | hnil
    · have hpos := limit.2.1
      omega
    · exact hrest hnil
  refine sendPartsFrom_induct (motive := fun _ _ sent => ∀ part ∈ sent.1, part.body ≠ [])
    ?readError ?finished ?refused ?accepted k rest
  case readError => exact fun _ _ _ => nofun
  case finished => exact fun _ _ _ => nofun
  case refused =>
    intro k rest limit error _ hrest _ part hmem
    rw [List.mem_singleton.mp hmem]
    exact hpart k limit hrest
  case accepted =>
    intro k rest limit later _ hrest _ ih part hmem
    rcases List.mem_cons.mp hmem with rfl | hlater
    · exact hpart k limit hrest
    · exact ih part hlater

/-- The loop ends well only when every part was accepted. -/
theorem accepted_of_mem (k : ℕ) (rest : List UInt8) :
    (sendPartsFrom digest upload url filename fileDigest k rest).2 = .ok () →
      ∀ part ∈ (sendPartsFrom digest upload url filename fileDigest k rest).1,
        (upload.answers part.number).accepted = true := by
  refine sendPartsFrom_induct (motive := fun _ _ sent => sent.2 = .ok () →
    ∀ part ∈ sent.1, (upload.answers part.number).accepted = true)
    ?readError ?finished ?refused ?accepted k rest
  case readError => exact fun _ _ _ => nofun
  case finished => exact fun _ _ _ _ => nofun
  case refused => exact fun _ _ _ _ _ _ _ => nofun
  case accepted =>
    intro k rest limit later _ _ haccepted ih hend part hmem
    rcases List.mem_cons.mp hmem with rfl | hlater
    · exact haccepted
    · exact ih hend part hlater

end Parts

section Chunks

variable {digest} {upload : Upload} {url filename fileDigest : String} {k : ℕ}

/-- The part of a number when each part is filled. -/
def chunk (content : List UInt8) (number : ℕ) : List UInt8 :=
  (content.drop ((number - 1) * chunkSize)).take chunkSize

/-- Nothing before a read ends the loop. -/
def Reached (upload : Upload) (k : ℕ) : Prop :=
  (∀ j < k, (upload.reads j).isSome) ∧
    ∀ j, 1 ≤ j → j ≤ k → (upload.answers j).accepted = true

/-- No read that the loop comes to stops short of a full part and of the end of the file. -/
def FullReads (upload : Upload) : Prop :=
  ∀ k limit, k * chunkSize < upload.content.length → Reached upload k →
    upload.reads k = some limit →
    limit.1 = chunkSize ∨ upload.content.length ≤ k * chunkSize + limit.1

theorem reached_succ {limit : ReadLimit} (hreached : Reached upload k)
    (hread : upload.reads k = some limit)
    (haccepted : (upload.answers (k + 1)).accepted = true) : Reached upload (k + 1) := by
  constructor
  · intro j hj
    rcases Nat.lt_succ_iff_lt_or_eq.mp hj with hlt | rfl
    · exact hreached.1 j hlt
    · rw [hread]
      rfl
  · intro j hpos hj
    rcases Nat.le_succ_iff.mp hj with hle | rfl
    · exact hreached.2 j hpos hle
    · exact haccepted

theorem reached_pred (h : Reached upload (k + 1)) : Reached upload k :=
  ⟨fun j hj => h.1 j (by omega), fun j hpos hj => h.2 j hpos (by omega)⟩

/-- A read fills its part exactly when it returns a full part or the rest of the file. -/
theorem take_eq_chunk_iff {content : List UInt8} (limit : ReadLimit) :
    (content.drop (k * chunkSize)).take limit.1 = chunk content (k + 1) ↔
      limit.1 = chunkSize ∨ content.length ≤ k * chunkSize + limit.1 := by
  have hlimit := limit.2.2
  have hshort : (content.drop (k * chunkSize)).take limit.1 = chunk content (k + 1) ↔
      min limit.1 (content.length - k * chunkSize) =
        min chunkSize (content.length - k * chunkSize) := by
    rw [chunk, Nat.add_sub_cancel, List.take_eq_take_iff, List.length_drop]
  rw [hshort]
  omega

theorem body_eq_chunk_of_mem (hfull : FullReads upload) (k : ℕ) (rest : List UInt8)
    (hreached : Reached upload k) (hrest : rest = upload.content.drop (k * chunkSize)) :
    ∀ part ∈ (sendPartsFrom digest upload url filename fileDigest k rest).1,
      part.body = chunk upload.content part.number := by
  have hfirst : ∀ (k : ℕ) {rest : List UInt8} {limit : ReadLimit}, Reached upload k →
      rest = upload.content.drop (k * chunkSize) → rest ≠ [] → upload.reads k = some limit →
      limit.1 = chunkSize ∨ upload.content.length ≤ k * chunkSize + limit.1 := by
    intro k rest limit hreached hrest hne hread
    refine hfull k limit ?_ hreached hread
    rw [hrest] at hne
    exact List.length_lt_of_drop_ne_nil hne
  refine sendPartsFrom_induct (motive := fun k rest sent => Reached upload k →
    rest = upload.content.drop (k * chunkSize) →
      ∀ part ∈ sent.1, part.body = chunk upload.content part.number)
    ?readError ?finished ?refused ?accepted k rest hreached hrest
  case readError => exact fun _ _ _ _ _ => nofun
  case finished => exact fun _ _ _ _ _ => nofun
  case refused =>
    intro k rest limit error hread hne _ hreached hrest part hmem
    rw [List.mem_singleton.mp hmem]
    have hlimit := (take_eq_chunk_iff limit).mpr (hfirst k hreached hrest hne hread)
    rwa [← hrest] at hlimit
  case accepted =>
    intro k rest limit later hread hne haccepted ih hreached hrest part hmem
    have hfilled := hfirst k hreached hrest hne hread
    rcases List.mem_cons.mp hmem with rfl | hlater
    · have hlimit := (take_eq_chunk_iff limit).mpr hfilled
      rwa [← hrest] at hlimit
    · refine ih (reached_succ hreached hread haccepted) ?_ part hlater
      rw [hrest, List.drop_drop, Nat.succ_mul]
      rcases hfilled with hfull | hend
      · rw [hfull]
      · -- The part was the last one, and nothing is left of the file.
        have hlimit := limit.2.2
        rw [List.drop_eq_nil_of_le hend, List.drop_eq_nil_of_le (by omega)]

/-- What one upload of a file promises of its parts and of its end. -/
structure UploadExact (upload : Upload) : Prop where
  inOrder : ∀ digest url filename fileDigest,
    ((sendParts digest upload url filename fileDigest).1.map Part.body).flatten <+: upload.content
  whole : ∀ digest url filename fileDigest,
    (sendParts digest upload url filename fileDigest).2 = .ok () →
      ((sendParts digest upload url filename fileDigest).1.map Part.body).flatten = upload.content
  numbered : ∀ digest url filename fileDigest,
    (sendParts digest upload url filename fileDigest).1.map Part.number =
      List.range' 1 (sendParts digest upload url filename fileDigest).1.length
  nonempty : ∀ digest url filename fileDigest,
    ∀ part ∈ (sendParts digest upload url filename fileDigest).1, part.body ≠ []
  chunked : ∀ digest url filename fileDigest,
    ∀ part ∈ (sendParts digest upload url filename fileDigest).1,
      part.body = chunk upload.content part.number
  finalized : ∀ digest service filename uploadId apiUrl url,
    .finalize url ∈ (sendFile digest upload service filename uploadId apiUrl).1 →
      ∀ part, .part part ∈ (sendFile digest upload service filename uploadId apiUrl).1 →
        (upload.answers part.number).accepted = true

/-- An upload is finalized only after its parts, each of which was accepted. -/
theorem accepted_of_finalize {service : Service} {name : Option String}
    {uploadId apiUrl finalizeUrl : String}
    (h : .finalize finalizeUrl ∈ (sendFile digest upload service name uploadId apiUrl).1)
    (part : Part) (hpart : .part part ∈ (sendFile digest upload service name uploadId apiUrl).1) :
    (upload.answers part.number).accepted = true := by
  unfold sendFile at h hpart
  cases name with
  | none => simp at h
  | some name =>
    cases htarget : service.target with
    | transportError => simp [htarget] at h
    | status code =>
      by_cases hcode : code = 200
      · subst hcode
        cases hdigest : digestFrom digest service.digestReads 0 [] upload.content with
        | error error => simp [htarget, hdigest] at h
        | ok fileDigest =>
          simp only [htarget, hdigest, ne_eq, not_true_eq_false, if_false] at h hpart
          split at h
          · simp at h
          · rename_i hend
            simp only [hend, finalizeSend] at hpart
            have hmem : part ∈ (sendParts digest upload
                (apiUrl ++ "/api/uploads/" ++ normalizeUploadId uploadId) name fileDigest).1 := by
              simpa using hpart
            exact accepted_of_mem 0 upload.content hend part hmem
      · simp [htarget, hcode] at h

/-- What the loop sends from a chunk on, as long as the parts so far were chunks. -/
theorem mem_sendParts_of_reached
    (hchunked : ∀ part ∈ (sendParts digest upload url filename fileDigest).1,
      part.body = chunk upload.content part.number) (k : ℕ) :
    k * chunkSize < upload.content.length → Reached upload k →
      ∀ part ∈ (sendPartsFrom digest upload url filename fileDigest k
          (upload.content.drop (k * chunkSize))).1,
        part ∈ (sendParts digest upload url filename fileDigest).1 := by
  induction k with
  | zero =>
    intro _ _ part hpart
    simpa [sendParts] using hpart
  | succ k ih =>
    intro hlength hreached part hpart
    have hbefore : k * chunkSize < upload.content.length :=
      lt_of_le_of_lt (Nat.mul_le_mul_right _ (Nat.le_succ k)) hlength
    have hparts := ih hbefore (reached_pred hreached)
    have hne : upload.content.drop (k * chunkSize) ≠ [] :=
      fun hnil => absurd (List.drop_eq_nil_iff.mp hnil) (by omega)
    obtain ⟨limit, hread⟩ := Option.isSome_iff_exists.mp (hreached.1 k (Nat.lt_succ_self k))
    have haccepted := hreached.2 (k + 1) (Nat.succ_le_succ (Nat.zero_le k)) le_rfl
    rw [sendPartsFrom_accepted hread hne haccepted] at hparts
    -- The part before this chunk was a whole one, as the file goes on after it.
    have hfilled := (take_eq_chunk_iff limit).mp
      (hchunked _ (hparts _ List.mem_cons_self))
    have hlimit : limit.1 = chunkSize := by
      rw [Nat.succ_mul] at hlength
      have hbound := limit.2.2
      omega
    refine hparts part (List.mem_cons_of_mem _ ?_)
    rwa [hlimit, List.drop_drop, ← Nat.succ_mul]

theorem fullReads_of_chunked
    (hchunked : ∀ part ∈ (sendParts digest upload url filename fileDigest).1,
      part.body = chunk upload.content part.number) : FullReads upload := by
  intro k limit hlength hreached hread
  have hne : upload.content.drop (k * chunkSize) ≠ [] :=
    fun hnil => absurd (List.drop_eq_nil_iff.mp hnil) (by omega)
  have hfirst : partOf digest url filename fileDigest k
      (upload.content.drop (k * chunkSize)) limit ∈
        (sendPartsFrom digest upload url filename fileDigest k
          (upload.content.drop (k * chunkSize))).1 := by
    cases hanswer : (upload.answers (k + 1)).accepted with
    | true =>
      rw [sendPartsFrom_accepted hread hne hanswer]
      exact List.mem_cons_self
    | false =>
      obtain ⟨error, herror⟩ := @sendPartsFrom_refused digest upload url filename fileDigest
        k _ limit hread hne hanswer
      rw [herror]
      exact List.mem_cons_self
  have hpart := mem_sendParts_of_reached hchunked k hlength hreached _ hfirst
  exact (take_eq_chunk_iff limit).mp (hchunked _ hpart)

/-- An upload is cut at the chunks of its file exactly when no read on its way falls short. -/
theorem upload_exact_iff (upload : Upload) : UploadExact upload ↔ FullReads upload := by
  constructor
  · intro hexact
    exact fullReads_of_chunked (hexact.chunked (fun _ => "") "" "" "")
  · intro hfull
    have hstart : Reached upload 0 := ⟨fun j hj => absurd hj (Nat.not_lt_zero j),
      fun j hpos hj => absurd hj (by omega)⟩
    constructor
    case inOrder =>
      intro digest url filename fileDigest
      obtain ⟨left, hleft, _⟩ :=
        @prefix_of_sendPartsFrom digest upload url filename fileDigest 0 upload.content
      exact ⟨left, hleft⟩
    case whole =>
      intro digest url filename fileDigest hend
      obtain ⟨left, hleft, hnil⟩ :=
        @prefix_of_sendPartsFrom digest upload url filename fileDigest 0 upload.content
      rw [hnil hend, List.append_nil] at hleft
      exact hleft
    case numbered => exact fun _ _ _ _ => sendPartsFrom_numbers 0 upload.content
    case nonempty => exact fun _ _ _ _ => body_ne_nil_of_mem 0 upload.content
    case chunked =>
      exact fun _ _ _ _ => body_eq_chunk_of_mem hfull 0 upload.content hstart (by simp)
    case finalized => exact fun _ _ _ _ _ _ => accepted_of_finalize

/-- A part that another upload of the file stored under its number is the same part. -/
theorem body_eq_of_number_eq {before after : Upload} (hcontent : before.content = after.content)
    (hbefore : UploadExact before) (hafter : UploadExact after) {stored part : Part}
    (hstored : stored ∈ (sendParts digest before url filename fileDigest).1)
    (hpart : part ∈ (sendParts digest after url filename fileDigest).1)
    (hnumber : stored.number = part.number) : stored.body = part.body := by
  rw [hbefore.chunked _ _ _ _ stored hstored, hafter.chunked _ _ _ _ part hpart, hcontent,
    hnumber]

/-- A file of a little over two mebibytes, of which one read returns at most two. -/
def shortRead : Upload where
  content := List.replicate (2 * 1024 * 1024 + 1) 0
  reads := fun _ => some ⟨2 * 1024 * 1024, by decide⟩
  answers := fun _ => .status 201

/-- The first part of such a file ends where the read did. -/
theorem shortRead_not_exact : ¬UploadExact shortRead := by
  intro hexact
  have hfull := fullReads_of_chunked (hexact.chunked (fun _ => "") "" "" "")
  have hlength : shortRead.content.length = 2 * 1024 * 1024 + 1 := List.length_replicate
  have hfilled := hfull 0 ⟨2 * 1024 * 1024, by decide⟩ (by rw [hlength]; omega)
    ⟨fun j hj => absurd hj (Nat.not_lt_zero j), fun j hpos hj => absurd hj (by omega)⟩ rfl
  rw [hlength] at hfilled
  rcases hfilled with hchunk | hend
  · exact absurd hchunk (by decide)
  · exact absurd hend (by decide)

end Chunks

end Sending

end Esdiag.UploadParts
