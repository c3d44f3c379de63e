import Esdiag.SkillInstall
import Esdiag.Texts

/-!
What an installation of the skill leaves of the directory that it finds. The digest of a
marker determines the paths and the bytes of the files that it was made for, so that an
installer recognises what an installer has written. The steps of a replacement are judged
by what stands at the destination: until the last rename it is the old directory, or that
is the backup, and after it the validated stage.
-/
namespace Esdiag.SkillOwnership

open KeyedMaps FramedRecords FailingPrograms SkillInstall

section Digests

/-- The files as their digest sees them: the text of each path, and the bytes. -/
def listing (files : Files) : List (String × List UInt8) :=
  (inPathOrder files).map fun file => (toStringLossy file.1, file.2.1)

theorem zero_notMem_utf8EncodeChar {c : Char} (h : c ≠ '\x00') :
    0 ∉ String.utf8EncodeChar c := by
  intro hmem
  have hzero := Texts.toNat_eq_of_mem_utf8EncodeChar (by decide) hmem
  exact h (Char.ext (UInt32.toNat_inj.mp hzero))

theorem mem_of_mem_intersperse {α : Type*} {sep a : α} {parts : List α}
    (h : a ∈ parts.intersperse sep) : a = sep ∨ a ∈ parts := by
  induction parts with
  | nil => exact Or.inr h
  | cons first rest ih =>
    cases rest with
    | nil => exact Or.inr h
    | cons second rest =>
      rw [List.intersperse_cons_cons, List.mem_cons, List.mem_cons] at h
      rcases h with rfl | rfl | h
      · exact Or.inr List.mem_cons_self
      · exact Or.inl rfl
      · exact (ih h).imp_right (List.mem_cons_of_mem _)

theorem zero_notMem_toStringLossy (path : SkillPath) :
    0 ∉ (toStringLossy path).toByteArray.data.toList := by
  unfold toStringLossy
  rw [Texts.bytes_ofList, List.mem_flatMap]
  rintro ⟨c, hc, hzero⟩
  refine zero_notMem_utf8EncodeChar ?_ hzero
  rintro rfl
  rw [List.mem_flatten] at hc
  obtain ⟨part, hpart, hc⟩ := hc
  rcases mem_of_mem_intersperse hpart with rfl | hpart
  · revert hc
    decide
  · obtain ⟨name, -, rfl⟩ := List.mem_map.mp hpart
    obtain ⟨unit, hunit, hlossy⟩ := List.mem_map.mp hc
    cases unit with
    | char c =>
      obtain rfl : c = '\x00' := hlossy
      exact (name.valid _ hunit).1 rfl
    | invalid bytes => exact absurd hlossy (show '\uFFFD' ≠ '\x00' by decide)

/-- Equal texts for the digest come from equal listings. -/
theorem listing_of_manifestText {files files' : Files}
    (h : manifestText files = manifestText files') : listing files = listing files' := by
  have hfits : ∀ files : Files, ∀ frame ∈ (inPathOrder files).map (fun file =>
      (⟨(toStringLossy file.1).toByteArray.data.toList, file.2.1⟩ : Frame)), frame.Fits 8 := by
    intro files frame hframe
    obtain ⟨file, -, rfl⟩ := List.mem_map.mp hframe
    exact ⟨zero_notMem_toStringLossy file.1, file.2.2⟩
  have hframes := bytes_injective (hfits files) (hfits files') h
  have hdecode : ∀ files : Files, (listing files).map (fun file =>
      (⟨file.1.toByteArray.data.toList, file.2⟩ : Frame)) = (inPathOrder files).map (fun file =>
      (⟨(toStringLossy file.1).toByteArray.data.toList, file.2.1⟩ : Frame)) := by
    intro files
    rw [listing, List.map_map]
    rfl
  rw [← hdecode, ← hdecode] at hframes
  refine List.map_injective_iff.mpr ?_ hframes
  rintro ⟨text, bytes⟩ ⟨text', bytes'⟩ heq
  obtain ⟨htext, hbytes⟩ := Frame.mk.inj heq
  have htext : text = text' := by
    rw [← String.toByteArray_inj]
    exact ByteArray.ext (Array.toList_inj.mp htext)
  exact congr (congrArg Prod.mk htext) hbytes

end Digests

section Inspections

variable {readable : SkillPath → Bool}

mutual
/-- What can be collected can be collected when no call fails. -/
theorem collectSkillFiles_smooth (directory : SkillPath) (entries : List (FileName × Node))
    (files out : Files) (h : collectSkillFiles readable directory entries files = .ok out) :
    collectSkillFiles (fun _ => true) directory entries files = .ok out := by
  match entries with
  | [] => exact h
  | (name, node) :: rest =>
    rw [collectSkillFiles] at h ⊢
    cases hentry : collectEntry readable (directory ++ [name]) node files with
    | error error =>
      rw [hentry] at h
      cases h
    | ok collected =>
      rw [hentry] at h
      rw [collectEntry_smooth (directory ++ [name]) node files collected hentry]
      exact collectSkillFiles_smooth directory rest collected out h

theorem collectEntry_smooth (path : SkillPath) (node : Node) (files out : Files)
    (h : collectEntry readable path node files = .ok out) :
    collectEntry (fun _ => true) path node files = .ok out := by
  match node with
  | .symlink resolves =>
    rw [collectEntry] at h
    cases h
  | .other =>
    rw [collectEntry] at h
    cases h
  | .dir entries =>
    rw [collectEntry] at h ⊢
    cases hreadable : readable path with
    | false =>
      rw [hreadable] at h
      cases h
    | true =>
      rw [hreadable, if_pos rfl] at h
      rw [if_pos rfl]
      exact collectSkillFiles_smooth path entries files out h
  | .file contents =>
    rw [collectEntry] at h ⊢
    cases hreadable : readable path with
    | false =>
      rw [hreadable] at h
      cases h
    | true =>
      rw [hreadable] at h
      exact h
end

theorem readSkillFiles_smooth {entries : Entries} {files : Files}
    (h : readSkillFiles readable entries = .ok files) :
    readSkillFiles (fun _ => true) entries = .ok files := by
  unfold readSkillFiles at h ⊢
  cases hreadable : readable [] with
  | false =>
    rw [hreadable] at h
    cases h
  | true =>
    rw [hreadable, if_pos rfl] at h
    rw [if_pos rfl]
    exact collectSkillFiles_smooth [] entries .empty files h

variable {installer : Installer} {answers : InspectAnswers} {embedded : EmbeddedSkill}

theorem readMarker_smooth {entries : Entries} {marker : InstallerMarker}
    (h : readMarker installer answers entries = .ok (some marker)) :
    readMarker installer .smooth entries = .ok (some marker) := by
  unfold readMarker at h ⊢
  dsimp only at h ⊢
  cases hnode : lookup installerMarker entries with
  | none => simp [hnode, pathExists] at h
  | some node =>
    cases hpresent : pathExists answers.markerReported (some node) with
    | false => simp [hnode, hpresent] at h
    | true =>
      cases hreadable : answers.markerReadable with
      | false => simp [hnode, hpresent, hreadable] at h
      | true =>
        have hsmooth : pathExists InspectAnswers.smooth.markerReported (some node) = true := by
          unfold pathExists at hpresent ⊢
          exact (Bool.and_eq_true_iff.mp hpresent).2
        rw [hnode, hpresent, hreadable] at h
        rw [hsmooth]
        exact h

variable (installer) in
theorem readMarker_smooth_isOk (entries : Entries) :
    ∃ marker, readMarker installer .smooth entries = .ok marker := by
  unfold readMarker
  dsimp only
  split
  · exact ⟨none, rfl⟩
  · split
    · next hfailed => cases hfailed
    · split
      · exact ⟨_, rfl⟩
      · exact ⟨none, rfl⟩

/-- What an inspection says of the files and the marker that it has read. -/
def stateOf (installer : Installer) (embedded : EmbeddedSkill) (files : Files)
    (marker : Option InstallerMarker) : SkillState :=
  if inPathOrder files = inPathOrder embedded.files then .exact
  else
    match marker with
    | some marker =>
      if marker.installer = installerId then
        if marker.digest = manifestDigest installer files then .managedIntact marker.version
        else .modified
      else .unrecognized
    | none => .unrecognized

theorem inspect_cases {destination : Option Node} {state : SkillState}
    (h : inspect installer answers embedded destination = .ok state) :
    (pathExists answers.existsReported destination = false ∧ state = .missing) ∨
      state = .unrecognized ∨
      ∃ entries files marker, destination = some (.dir entries) ∧
        readSkillFiles answers.readable entries = .ok files ∧
        readMarker installer answers entries = .ok marker ∧
        state = stateOf installer embedded files marker := by
  unfold inspect at h
  split at h
  · next hexists => exact Or.inl ⟨hexists, (Except.ok.inj h).symm⟩
  split at h
  · cases h
  split at h
  · next entries _ =>
    cases hfiles : readSkillFiles answers.readable entries with
    | error error =>
      rw [hfiles] at h
      cases h
    | ok files =>
      cases hmarker : readMarker installer answers entries with
      | error error =>
        rw [hfiles, hmarker] at h
        cases h
      | ok marker =>
        refine Or.inr (Or.inr ⟨entries, files, marker, rfl, hfiles, hmarker, ?_⟩)
        rw [hfiles, hmarker] at h
        dsimp only at h
        unfold stateOf
        split at h
        · next hexact => rw [if_pos hexact, Except.ok.inj h]
        · next hexact =>
          rw [if_neg hexact]
          cases marker with
          | none => exact (Except.ok.inj h).symm
          | some marker =>
            dsimp only at h ⊢
            split at h
            · next howner =>
              rw [if_pos howner]
              split at h
              · next hdigest => rw [if_pos hdigest, Except.ok.inj h]
              · next hdigest => rw [if_neg hdigest, Except.ok.inj h]
            · next howner => rw [if_neg howner, Except.ok.inj h]
  · exact Or.inr (Or.inl (Except.ok.inj h).symm)

theorem inspect_exact_smooth {destination : Option Node}
    (h : inspect installer answers embedded destination = .ok .exact) :
    inspect installer .smooth embedded destination = .ok .exact ∧
      ∃ entries, destination = some (.dir entries) := by
  rcases inspect_cases h with ⟨-, hstate⟩ | hstate | ⟨entries, files, marker, rfl, hfiles, -, hstate⟩
  · cases hstate
  · cases hstate
  have hexact : inPathOrder files = inPathOrder embedded.files := by
    unfold stateOf at hstate
    split at hstate
    · next hexact => exact hexact
    · split at hstate
      · split at hstate
        · split at hstate <;> cases hstate
        · cases hstate
      · cases hstate
  obtain ⟨read, hread⟩ := readMarker_smooth_isOk installer entries
  refine ⟨?_, entries, rfl⟩
  unfold inspect
  rw [if_neg (by simp [pathExists, InspectAnswers.smooth, Node.present]),
    if_neg (by simp [InspectAnswers.smooth])]
  dsimp only
  rw [show InspectAnswers.smooth.readable = fun _ => true from rfl, readSkillFiles_smooth hfiles,
    hread]
  dsimp only
  rw [if_pos hexact]

/-- A directory is taken for an installer's only with a marker for the files that it holds. -/
theorem inspect_managedIntact {destination : Option Node} {version : String}
    (h : inspect installer answers embedded destination = .ok (.managedIntact version)) :
    ∃ entries files marker, destination = some (.dir entries) ∧
      readSkillFiles (fun _ => true) entries = .ok files ∧
      readMarker installer .smooth entries = .ok (some marker) ∧
      marker.installer = installerId ∧ marker.digest = manifestDigest installer files := by
  rcases inspect_cases h with ⟨-, hstate⟩ | hstate |
    ⟨entries, files, marker, rfl, hfiles, hmarker, hstate⟩
  · cases hstate
  · cases hstate
  unfold stateOf at hstate
  split at hstate
  · cases hstate
  split at hstate
  · next marker =>
    split at hstate
    · next howner =>
      split at hstate
      · next hdigest =>
        exact ⟨entries, files, marker, rfl, readSkillFiles_smooth hfiles, readMarker_smooth hmarker,
          howner, hdigest⟩
      · cases hstate
    · cases hstate
  · cases hstate

theorem inspect_missing {destination : Option Node} (hreported : answers.existsReported = true)
    (h : inspect installer answers embedded destination = .ok .missing) :
    destination = none ∨ destination = some (.symlink false) := by
  rcases inspect_cases h with ⟨hexists, -⟩ | hstate | ⟨_, _, marker, -, -, -, hstate⟩
  · unfold pathExists at hexists
    rw [hreported, Bool.true_and] at hexists
    cases destination with
    | none => exact Or.inl rfl
    | some node =>
      cases node with
      | symlink resolves => exact Or.inr (congrArg (some ∘ Node.symlink) hexists)
      | file contents => cases hexists
      | dir entries => cases hexists
      | other => cases hexists
  · cases hstate
  · unfold stateOf at hstate
    split at hstate
    · cases hstate
    split at hstate
    · split at hstate
      · split at hstate <;> cases hstate
      · cases hstate
    · cases hstate

end Inspections

section Replacements

variable {installer : Installer} {embedded : EmbeddedSkill} {answers : InstallAnswers}

/-- The destination holds the skill. -/
def Installed (installer : Installer) (embedded : EmbeddedSkill) (siblings : Siblings) : Prop :=
  inspect installer .smooth embedded siblings.destination = .ok .exact

/-- What a failed replacement leaves: the destination as it was, the new one beside a backup that
could not be removed, or the old one as a backup that could not be renamed back. -/
def FailedSafely (installer : Installer) (embedded : EmbeddedSkill) (before : Siblings)
    (error : SkillError) (siblings : Siblings) : Prop :=
  siblings.destination = before.destination ∨
    (error = .backup ∧ Installed installer embedded siblings) ∨
    (error = .activate ∧ siblings.destination = none ∧ siblings.backup = before.destination)

theorem writeStagedSkill_spec (before : Siblings) :
    Triple (fun s => s = before) (writeStagedSkill installer embedded answers)
      (fun _ s => s.destination = before.destination)
      fun _ s => s.destination = before.destination := by
  rintro s rfl
  unfold writeStagedSkill
  cases pathExists answers.stageReported s.stage with
  | true => exact rfl
  | false =>
    cases s.stage.isSome with
    | true => exact rfl
    | false =>
      cases answers.stageWritten with
      | false => exact rfl
      | true =>
        cases stagedSkill installer embedded with
        | none => exact rfl
        | some entries => exact rfl

theorem preserve_spec (destination stage : Option Node) :
    Triple (fun s => s.destination = destination ∧ s.stage = stage) (preserve answers)
      (fun _ s => s.destination = none ∧ s.stage = stage ∧ s.backup = destination)
      fun _ s => s.destination = destination := by
  rintro s ⟨rfl, rfl⟩
  unfold preserve
  cases answers.preserved && replaceable s.destination s.backup with
  | true => exact ⟨rfl, rfl, rfl⟩
  | false => exact rfl

/-- The last rename, with the old directory as the backup. -/
theorem activate_preserved_spec (destination : Option Node) (entries : Entries) :
    Triple (fun s => s.destination = none ∧ s.stage = some (.dir entries) ∧ s.backup = destination)
      (activate answers true) (fun _ s => s.destination = some (.dir entries))
      fun error s => s.destination = destination ∨
        (error = .activate ∧ s.destination = none ∧ s.backup = destination) := by
  rintro ⟨_, _, backup⟩ ⟨rfl, rfl, rfl⟩
  unfold activate
  dsimp only
  cases answers.activated with
  | true => exact rfl
  | false =>
    rw [Bool.false_and, if_neg Bool.false_ne_true, Bool.true_and]
    cases answers.restored && replaceable backup none with
    | true => exact Or.inl rfl
    | false => exact Or.inr ⟨rfl, rfl, rfl⟩

/-- The last rename, to a name that is free or taken by an empty directory. -/
theorem activate_spec (destination : Option Node) (entries : Entries) :
    Triple (fun s => s.destination = destination ∧ s.stage = some (.dir entries))
      (activate answers false)
      (fun _ s => s.destination = some (.dir entries) ∧
        (destination = none ∨ destination = some (.dir [])))
      fun _ s => s.destination = destination := by
  rintro ⟨current, _, backup⟩ ⟨rfl, rfl⟩
  unfold activate
  dsimp only
  cases hreplaced : answers.activated && replaceable (some (.dir entries)) current with
  | false => exact rfl
  | true =>
    refine ⟨rfl, ?_⟩
    have htarget := (Bool.and_eq_true_iff.mp hreplaced).2
    cases current with
    | none => exact Or.inl rfl
    | some node =>
      cases node with
      | file contents => cases htarget
      | symlink resolves => cases htarget
      | other => cases htarget
      | dir below =>
        cases below with
        | nil => exact Or.inr rfl
        | cons entry rest => cases htarget

theorem removeBackup_spec (destination : Option Node) :
    Triple (fun s => s.destination = destination) (removeBackup answers)
      (fun _ s => s.destination = destination)
      fun error s => error = .backup ∧ s.destination = destination := by
  rintro ⟨_, stage, backup⟩ rfl
  unfold removeBackup
  cases backup with
  | none => exact ⟨rfl, rfl⟩
  | some node =>
    cases node with
    | file contents => exact ⟨rfl, rfl⟩
    | other => exact ⟨rfl, rfl⟩
    | dir entries =>
      cases answers.backupRemoved with
      | true => exact rfl
      | false => exact ⟨rfl, rfl⟩
    | symlink resolves =>
      cases answers.backupRemoved with
      | true => exact rfl
      | false => exact ⟨rfl, rfl⟩

/-- A replacement, and where it can succeed without a backup. -/
theorem replaceSkill_spec (before : Siblings) :
    Triple (fun s => s = before) (replaceSkill installer embedded answers)
      (fun _ s => Installed installer embedded s ∧
        (pathExists answers.destinationReported before.destination = true ∨
          before.destination = none ∨ before.destination = some (.dir [])))
      fun error s => s.destination = before.destination ∨
        (pathExists answers.destinationReported before.destination = true ∧
          FailedSafely installer embedded before error s) := by
  unfold replaceSkill
  refine Triple.stopUnless_bind ?_ fun _ => ?_
  · rintro - s rfl
    exact Or.inl rfl
  refine Triple.bind ((writeStagedSkill_spec before).conseq (fun _ hs => hs) (fun _ _ hs => hs)
    fun _ _ hs => Or.inl hs) fun _ => ?_
  refine Triple.get_bind fun staged => ?_
  refine Triple.liftResult_bind ?_ fun state hstate => ?_
  · rintro error - s ⟨-, hs⟩
    exact Or.inl hs
  refine Triple.stopUnless_bind ?_ fun hexact => ?_
  · rintro - s ⟨-, hs⟩
    exact Or.inl hs
  obtain rfl : state = .exact := of_decide_eq_true hexact
  obtain ⟨hsmooth, entries, hstage⟩ := inspect_exact_smooth hstate
  rw [hstage] at hsmooth
  have hinstalled : ∀ s : Siblings, s.destination = some (.dir entries) →
      Installed installer embedded s := by
    intro s hs
    unfold Installed
    rw [hs]
    exact hsmooth
  by_cases hstaged : staged.destination = before.destination
  · dsimp only
    rw [hstaged]
    cases hpreserved : pathExists answers.destinationReported before.destination with
    | true =>
      refine Triple.bind ((preserve_spec before.destination (some (.dir entries))).conseq
        ?_ (fun _ _ hs => hs) fun _ _ hs => Or.inl hs) fun _ => ?_
      · rintro s ⟨rfl, hs⟩
        exact ⟨hs, hstage⟩
      refine Triple.bind ((activate_preserved_spec before.destination entries).conseq
        (fun _ hs => hs) (fun _ _ hs => hs) ?_) fun _ => ?_
      · rintro error s (hs | hfailed)
        · exact Or.inl hs
        · exact Or.inr ⟨rfl, Or.inr (Or.inr hfailed)⟩
      refine (removeBackup_spec (some (.dir entries))).conseq (fun _ hs => hs) ?_ ?_
      · intro _ s hs
        exact ⟨hinstalled s hs, Or.inl rfl⟩
      · rintro error s ⟨rfl, hs⟩
        exact Or.inr ⟨rfl, Or.inr (Or.inl ⟨rfl, hinstalled s hs⟩)⟩
    | false =>
      refine Triple.bind (Q := fun _ s => s = staged ∧ s.destination = before.destination)
        (Triple.whenever (fun _ _ hs => hs) fun h => by cases h) fun _ => ?_
      refine Triple.bind ((activate_spec before.destination entries).conseq ?_ (fun _ _ hs => hs)
        fun _ _ hs => Or.inl hs) fun _ => ?_
      · rintro s ⟨rfl, hs⟩
        exact ⟨hs, hstage⟩
      refine Triple.whenever ?_ fun h => by cases h
      rintro - s ⟨hs, hfree⟩
      exact ⟨hinstalled s hs, Or.inr hfree⟩
  · rintro s ⟨rfl, hs⟩
    exact absurd hs hstaged

end Replacements

section Installations

variable {installer : Installer} {embedded : EmbeddedSkill} {force : Bool}
  {answers : InstallAnswers}

/-- What an installer has written: a marker of it for the files that are there, and for no
skill with other files. -/
def WrittenByInstaller (installer : Installer) (destination : Option Node) : Prop :=
  ∃ entries files marker, destination = some (.dir entries) ∧
    readSkillFiles (fun _ => true) entries = .ok files ∧
    readMarker installer .smooth entries = .ok (some marker) ∧
    marker.installer = installerId ∧ marker.digest = manifestDigest installer files ∧
    ∀ skill : EmbeddedSkill, marker.digest = skill.digest installer →
      listing files = listing skill.files

theorem writtenByInstaller_of_managedIntact (hsha : Function.Injective installer.sha256)
    {inspected : InspectAnswers} {destination : Option Node} {version : String}
    (h : inspect installer inspected embedded destination = .ok (.managedIntact version)) :
    WrittenByInstaller installer destination := by
  obtain ⟨entries, files, marker, hdir, hfiles, hmarker, howner, hdigest⟩ :=
    inspect_managedIntact h
  refine ⟨entries, files, marker, hdir, hfiles, hmarker, howner, hdigest, ?_⟩
  intro skill hskill
  exact listing_of_manifestText (hsha (hdigest.symm.trans hskill))

/-- Without force, a destination that changes was free or written by an installer. -/
def KeepsOthers (installer : Installer) (force : Bool) (before after : Siblings) : Prop :=
  force = false → after.destination ≠ before.destination →
    before.destination = none ∨ WrittenByInstaller installer before.destination

theorem keepsOthers_of_eq {before after : Siblings}
    (h : after.destination = before.destination) : KeepsOthers installer force before after :=
  fun _ hne => absurd h hne

/-- A replacement that may be made. -/
theorem replace_spec {before : Siblings} (action : SkillAction)
    (howned : force = false → WrittenByInstaller installer before.destination) :
    Triple (fun s => s = before)
      (do
        replaceSkill installer embedded answers
        pure action : Action SkillAction)
      (fun _ s => Installed installer embedded s ∧ KeepsOthers installer force before s)
      fun error s => FailedSafely installer embedded before error s ∧
        KeepsOthers installer force before s := by
  refine Triple.bind ((replaceSkill_spec before).conseq (fun _ hs => hs) (fun _ _ hs => hs)
    fun error s hs => ⟨?_, fun hforce _ => Or.inr (howned hforce)⟩) fun _ => ?_
  · exact hs.elim Or.inl And.right
  · exact Triple.pure action fun s hs => ⟨hs.1, fun hforce _ => Or.inr (howned hforce)⟩

/-- An installation into a free name, which may be taken by a link to nothing. -/
theorem installMissing_spec {before : Siblings} (action : SkillAction)
    (hmissing : before.destination = none ∨ before.destination = some (.symlink false)) :
    Triple (fun s => s = before)
      (do
        replaceSkill installer embedded answers
        pure action : Action SkillAction)
      (fun _ s => Installed installer embedded s ∧ KeepsOthers installer force before s)
      fun error s => FailedSafely installer embedded before error s ∧
        KeepsOthers installer force before s := by
  have habsent : pathExists answers.destinationReported before.destination = false := by
    rcases hmissing with hnone | hlink
    · rw [hnone]
      exact Bool.and_false _
    · rw [hlink]
      exact Bool.and_false _
  refine Triple.bind ((replaceSkill_spec before).conseq (fun _ hs => hs) (fun _ _ hs => hs)
    fun error s hs => ?_) fun _ => ?_
  · rcases hs with heq | ⟨hpresent, -⟩
    · exact ⟨Or.inl heq, keepsOthers_of_eq heq⟩
    · rw [habsent] at hpresent
      cases hpresent
  · refine Triple.pure action fun s hs => ⟨hs.1, fun _ _ => Or.inl ?_⟩
    rcases hmissing with hnone | hlink
    · exact hnone
    · rcases hs.2 with hpresent | hnone | hempty
      · rw [habsent] at hpresent
        cases hpresent
      · exact hnone
      · rw [hlink] at hempty
        cases hempty

variable (embedded force) in
theorem install_spec (hsha : Function.Injective installer.sha256)
    (hreported : answers.inspected.existsReported = true) (before : Siblings) :
    Triple (fun s => s = before) (install installer embedded force answers)
      (fun action s => (action ≠ .conflict → Installed installer embedded s) ∧
        KeepsOthers installer force before s)
      fun error s => FailedSafely installer embedded before error s ∧
        KeepsOthers installer force before s := by
  unfold install
  refine Triple.get_bind fun found => ?_
  refine Triple.liftResult_bind ?_ fun state hstate => ?_
  · rintro error - s ⟨rfl, rfl⟩
    exact ⟨Or.inl rfl, keepsOthers_of_eq rfl⟩
  by_cases hfound : found = before
  · subst hfound
    have hforget : ∀ action,
        Triple (fun s => s = found)
          (do
            replaceSkill installer embedded answers
            pure action : Action SkillAction)
          (fun _ s => Installed installer embedded s ∧ KeepsOthers installer force found s)
          (fun error s => FailedSafely installer embedded found error s ∧
            KeepsOthers installer force found s) →
        Triple (fun s => s = found ∧ s = found)
          (do
            replaceSkill installer embedded answers
            pure action : Action SkillAction)
          (fun action s => (action ≠ .conflict → Installed installer embedded s) ∧
            KeepsOthers installer force found s)
          (fun error s => FailedSafely installer embedded found error s ∧
            KeepsOthers installer force found s) :=
      fun action h => h.conseq (fun _ hs => hs.1) (fun _ _ hs => ⟨fun _ => hs.1, hs.2⟩)
        fun _ _ hs => hs
    have hconflict : Triple (fun s => s = found ∧ s = found)
        (pure .conflict : Action SkillAction)
        (fun action s => (action ≠ .conflict → Installed installer embedded s) ∧
          KeepsOthers installer force found s)
        fun error s => FailedSafely installer embedded found error s ∧
          KeepsOthers installer force found s := by
      refine Triple.pure _ ?_
      rintro s ⟨rfl, -⟩
      exact ⟨fun hne => absurd rfl hne, keepsOthers_of_eq rfl⟩
    cases state with
    | missing =>
      exact hforget _ (installMissing_spec _ (inspect_missing hreported hstate))
    | managedIntact version =>
      exact hforget _ (replace_spec _ fun _ => writtenByInstaller_of_managedIntact hsha hstate)
    | exact =>
      refine Triple.pure _ ?_
      rintro s ⟨rfl, -⟩
      exact ⟨fun _ => (inspect_exact_smooth hstate).1, keepsOthers_of_eq rfl⟩
    | modified =>
      cases force with
      | true => exact hforget _ (replace_spec _ fun h => by cases h)
      | false => exact hconflict
    | unrecognized =>
      cases force with
      | true => exact hforget _ (replace_spec _ fun h => by cases h)
      | false => exact hconflict
  · rintro s ⟨rfl, hs⟩
    exact absurd hs hfound

def after : EStateM.Result SkillError Siblings SkillAction → Siblings
  | .ok _ siblings => siblings
  | .error _ siblings => siblings

/-- An installation without force changes a free destination or one that an installer has written;
if it fails, the destination is as it was, or the new skill is there and the backup could not be
removed, or the old one could not be renamed back; if it succeeds, the skill is there. -/
theorem install_ownership_safe (installer : Installer)
    (hsha : Function.Injective installer.sha256) (embedded : EmbeddedSkill) (force : Bool)
    (answers : InstallAnswers) (hreported : answers.inspected.existsReported = true)
    (before : Siblings) :
    KeepsOthers installer force before
        (after (install installer embedded force answers before)) ∧
      (∀ error siblings, install installer embedded force answers before = .error error siblings →
        FailedSafely installer embedded before error siblings) ∧
      ∀ action siblings, install installer embedded force answers before = .ok action siblings →
        action ≠ .conflict → Installed installer embedded siblings := by
  have hrun := install_spec embedded force hsha hreported before before rfl
  cases hresult : install installer embedded force answers before with
  | ok action siblings =>
    rw [hresult] at hrun
    refine ⟨hrun.2, ?_, ?_⟩
    · intro error other herror
      cases herror
    · intro other found hok
      obtain ⟨rfl, rfl⟩ := EStateM.Result.ok.inj hok
      exact hrun.1
  | error error siblings =>
    rw [hresult] at hrun
    refine ⟨hrun.2, ?_, ?_⟩
    · intro other found herror
      obtain ⟨rfl, rfl⟩ := EStateM.Result.error.inj herror
      exact hrun.1
    · intro action other hok
      cases hok

end Installations

section Samples

/-- A hash that gives the bytes back as characters. -/
def sampleHash (bytes : List UInt8) : String := String.ofList (bytes.map Char.ofUInt8)

theorem sampleHash_injective : Function.Injective sampleHash := by
  intro bytes bytes' h
  refine List.map_injective_iff.mpr ?_ (String.ofList_injective h)
  intro byte byte' heq
  have hnat := congrArg Char.toNat heq
  exact UInt8.toNat_inj.mp hnat

def textContents (text : String) : Contents :=
  if h : (text.toList.flatMap String.utf8EncodeChar).length < 256 ^ 8 then ⟨_, h⟩
  else ⟨[], by decide⟩

def sampleSkill : EmbeddedSkill where
  files := ⟨[([skillMd], textContents "b")], by decide⟩
  hasSkillMd := by decide
  noScripts := by decide
  noMarker := by decide

/-- A marker in the format of its file. -/
def sampleRender (marker : InstallerMarker) : Contents :=
  textContents ("\x7b\n  \"installer\": \"" ++ marker.installer ++ "\",\n  \"version\": \"" ++
    marker.version ++ "\",\n  \"digest\": \"" ++ marker.digest ++ "\"\n\x7d\n")

def olderFiles : Files := ⟨[([skillMd], textContents "a")], by decide⟩

/-- The markers of the skill and of its older version. -/
def sampleMarkers : List InstallerMarker :=
  [⟨installerId, "0.18.0", sampleHash (manifestText sampleSkill.files)⟩,
    ⟨installerId, "0.17.0", sampleHash (manifestText olderFiles)⟩]

/-- An installer that knows the two markers. -/
def sampleInstaller : Installer where
  sha256 := sampleHash
  parseMarker contents := sampleMarkers.find? fun marker => contents = sampleRender marker
  renderMarker := sampleRender
  version := "0.18.0"

def smoothInstall : InstallAnswers :=
  ⟨.smooth, true, true, true, none, .smooth, true, true, true, true, true, none⟩

/-- With force, over a directory of a user whose backup cannot be removed: the installation fails,
and the new skill is there. -/
theorem failed_install_replaces :
    ∃ siblings : Siblings,
      install sampleInstaller sampleSkill true { smoothInstall with backupRemoved := false }
          ⟨some (.dir [(skillMd, .file (textContents "a"))]), none, none⟩ =
        .error .backup siblings ∧
      siblings.destination ≠ some (.dir [(skillMd, .file (textContents "a"))]) := by
  refine ⟨_, rfl, fun hsame => ?_⟩
  have hinspect := congrArg (inspect sampleInstaller .smooth sampleSkill) hsame
  have hstates : (Except.ok .exact : Except SkillError SkillState) = .ok .unrecognized := hinspect
  cases hstates

/-- What the installer of the older version has left. -/
def olderInstall : Siblings where
  destination := some (.dir [(skillMd, .file (textContents "a")), (installerMarker,
    .file (sampleRender ⟨installerId, "0.17.0", sampleHash (manifestText olderFiles)⟩))])
  stage := none
  backup := none

/-- The last rename fails, and so does the one that would put the old directory back. -/
def failedRenames : InstallAnswers := { smoothInstall with activated := false, restored := false }

theorem olderInstall_managed : inspect sampleInstaller .smooth sampleSkill
    olderInstall.destination = .ok (.managedIntact "0.17.0") := by decide +kernel

theorem stagedSkill_exact : (stagedSkill sampleInstaller sampleSkill).map (fun entries =>
    inspect sampleInstaller .smooth sampleSkill (some (.dir entries))) = some (.ok .exact) := by
  decide +kernel

theorem failedRenames_keep :
    install sampleInstaller sampleSkill false failedRenames olderInstall =
      .error .activate ⟨none, none, olderInstall.destination⟩ := by
  obtain ⟨entries, hstaged, hexact⟩ := Option.map_eq_some_iff.mp stagedSkill_exact
  have hwritten : writeStagedSkill sampleInstaller sampleSkill failedRenames olderInstall =
      .ok () { olderInstall with stage := some (.dir entries) } := by
    unfold writeStagedSkill
    rw [hstaged]
    rfl
  have hget (siblings : Siblings) : (get : Action Siblings) siblings = .ok siblings siblings := rfl
  have hvalid : liftResult (inspect sampleInstaller failedRenames.validated sampleSkill
      (some (.dir entries))) { olderInstall with stage := some (.dir entries) } =
        .ok .exact { olderInstall with stage := some (.dir entries) } :=
    congrFun (congrArg liftResult hexact) _
  have hmanaged : liftResult (inspect sampleInstaller failedRenames.inspected sampleSkill
      olderInstall.destination) olderInstall = .ok (.managedIntact "0.17.0") olderInstall :=
    congrFun (congrArg liftResult olderInstall_managed) _
  have hready : (stopUnless failedRenames.parentReady SkillError.parent : Action Unit)
      olderInstall = .ok () olderInstall := rfl
  have hreplace : replaceSkill sampleInstaller sampleSkill failedRenames olderInstall =
      .error .activate ⟨none, none, olderInstall.destination⟩ := by
    refine (bind_of_ok hready).trans ?_
    refine (bind_of_ok hwritten).trans ?_
    refine (bind_of_ok (hget _)).trans ?_
    refine (bind_of_ok hvalid).trans ?_
    rfl
  refine (bind_of_ok (hget _)).trans ?_
  refine (bind_of_ok hmanaged).trans ?_
  exact bind_of_error hreplace

theorem install_ownership_safe_managed :
    inspect sampleInstaller .smooth sampleSkill olderInstall.destination =
        .ok (.managedIntact "0.17.0") ∧
      install sampleInstaller sampleSkill false failedRenames olderInstall =
        .error .activate ⟨none, none, olderInstall.destination⟩ ∧
      KeepsOthers sampleInstaller false olderInstall
        (after (install sampleInstaller sampleSkill false failedRenames olderInstall)) ∧
      (∀ error siblings,
        install sampleInstaller sampleSkill false failedRenames olderInstall =
            .error error siblings →
          FailedSafely sampleInstaller sampleSkill olderInstall error siblings) ∧
      ∀ action siblings,
        install sampleInstaller sampleSkill false failedRenames olderInstall =
            .ok action siblings →
          action ≠ .conflict → Installed sampleInstaller sampleSkill siblings :=
  ⟨olderInstall_managed, failedRenames_keep, install_ownership_safe sampleInstaller sampleHash_injective sampleSkill false
    failedRenames rfl olderInstall⟩

end Samples

end Esdiag.SkillOwnership
