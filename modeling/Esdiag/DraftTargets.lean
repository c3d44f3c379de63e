import Esdiag.DraftRoundTrip

/-!
The targets of a draft after normalization. A normalized draft has output
targets only where it processes and raw targets only where there is a bundle,
and these drafts are the ones that normalization leaves alone. The targets of
both send modes may stand beside each other: compiling reads those of the mode
that is chosen, so that dropping the others changes no job. One target is read
after its mode was left: a forward without a raw target takes the remote output.
-/
namespace Esdiag.DraftTargets

open SourceRegistry Deployments JobModel SavedJobs DraftRoundTrip

variable {env : Environment} {registry : Registry} {identifiers : Identifiers}

/-- The targets of a draft fit what it selects. -/
structure TargetsNormal (draft : JobDraft) : Prop where
  documents : processes draft = false → draft.send.remoteTarget = none ∧
    draft.send.localTarget = "" ∧ draft.send.localDirectory = ""
  raw : draft.targetAvailability.rawBundle = false →
    draft.send.rawRemoteTarget = none ∧ draft.send.rawLocal = false
  named : ∀ target ∈ draft.send.rawRemoteTarget, notBlank target = true
  saved : draft.send.rawLocal = true → draft.collect.mode = .collect → draft.collect.save = true

section Normalizing

variable (draft : JobDraft)

theorem processes_normalizeTargets : processes draft.normalizeTargets = processes draft := by
  rw [normalizeTargets_eq]
  rfl

theorem rawBundle_normalizeTargets :
    draft.normalizeTargets.targetAvailability.rawBundle = offersBundle draft := by
  rw [normalizeTargets_eq]
  rfl

theorem targetsNormal_normalizeTargets : TargetsNormal draft.normalizeTargets where
  documents := by
    rw [processes_normalizeTargets]
    intro h
    rw [normalizeTargets_eq, h]
    exact ⟨rfl, rfl, rfl⟩
  raw := by
    rw [rawBundle_normalizeTargets]
    intro h
    rw [normalizeTargets_eq, h]
    exact ⟨rfl, rfl⟩
  named := fun _ => notBlank_of_normalized draft
  saved := by
    rw [normalizeTargets_eq]
    intro hlocal hmode
    have hraw : draft.send.rawLocal = true := (Bool.and_eq_true_iff.mp hlocal).2
    have hcollect : draft.collect.mode = .collect := hmode
    change savesBundle draft = true
    rw [savesBundle, hraw, hcollect]
    exact Bool.or_true _

variable {draft}

theorem wantedRawTarget_of_normal (h : TargetsNormal draft) :
    wantedRawTarget draft = draft.send.rawRemoteTarget := by
  have hkept : draft.send.rawRemoteTarget.filter notBlank = draft.send.rawRemoteTarget := by
    cases hraw : draft.send.rawRemoteTarget with
    | none => rfl
    | some target => rw [Option.filter_some, if_pos (h.named target hraw)]
  unfold wantedRawTarget
  by_cases hadopts : adoptsRemoteTarget draft = true
  · -- A draft that adopts does not process, so that it has nothing to adopt.
    have hmodes := hadopts
    simp only [adoptsRemoteTarget, Bool.and_eq_true, Bool.not_eq_true', hkept,
      Option.isNone_iff_eq_none] at hmodes
    have hprocesses : processes draft = false := by
      rw [processes, hmodes.1.1.1]
      rfl
    rw [if_pos hadopts, (h.documents hprocesses).1, hmodes.2]
    rfl
  · rw [if_neg hadopts, hkept]

theorem savesBundle_of_normal (h : TargetsNormal draft) :
    savesBundle draft = draft.collect.save := by
  unfold savesBundle
  by_cases hraw : (draft.send.rawLocal && draft.collect.mode == .collect) = true
  · obtain ⟨hlocal, hmode⟩ := Bool.and_eq_true_iff.mp hraw
    rw [h.saved hlocal (beq_iff_eq.mp hmode), Bool.true_or]
  · rw [Bool.eq_false_iff.mpr hraw, Bool.or_false]

/-- The normal drafts are those that normalization leaves alone. -/
theorem normalizeTargets_eq_self_iff : draft.normalizeTargets = draft ↔ TargetsNormal draft := by
  constructor
  · intro h
    have hnormal := targetsNormal_normalizeTargets draft
    rwa [h] at hnormal
  · intro h
    have hoffers : offersBundle draft = draft.targetAvailability.rawBundle := by
      rw [offersBundle, savesBundle_of_normal h]
      rfl
    have hraw : (if offersBundle draft then wantedRawTarget draft else none) =
        draft.send.rawRemoteTarget ∧
        (offersBundle draft && draft.send.rawLocal) = draft.send.rawLocal := by
      rw [wantedRawTarget_of_normal h, hoffers]
      cases hbundle : draft.targetAvailability.rawBundle with
      | true => exact ⟨rfl, Bool.true_and _⟩
      | false =>
        obtain ⟨hremote, hlocal⟩ := h.raw hbundle
        rw [hremote, hlocal]
        exact ⟨rfl, rfl⟩
    have hdocuments :
        (if processes draft then draft.send.remoteTarget else none) = draft.send.remoteTarget ∧
        (if processes draft then draft.send.localTarget else "") = draft.send.localTarget ∧
        (if processes draft then draft.send.localDirectory else "") =
          draft.send.localDirectory := by
      cases hprocesses : processes draft with
      | true => exact ⟨rfl, rfl, rfl⟩
      | false =>
        obtain ⟨hremote, hlocal, hdirectory⟩ := h.documents hprocesses
        rw [hremote, hlocal, hdirectory]
        exact ⟨rfl, rfl, rfl⟩
    rw [normalizeTargets_eq, savesBundle_of_normal h, hraw.1, hraw.2, hdocuments.1,
      hdocuments.2.1, hdocuments.2.2]

end Normalizing

section Reading

variable (draft : JobDraft)

/-- The draft sends the raw bundle and nothing else. -/
def forwards : Bool := draft.process.mode == .forward && draft.send.mode == .toRemote

def readsRemoteTarget : Bool :=
  (processes draft && draft.send.mode == .toRemote) || adoptsRemoteTarget draft

def readsLocalTarget : Bool := processes draft && draft.send.mode == .toLocal

def readsLocalDirectory : Bool := readsLocalTarget draft && draft.send.localTarget == "directory"

def readsRawTarget : Bool := processes draft || forwards draft

/-- The draft with the targets that are read: those of its modes and, for a forward that
has no raw target of its own, the remote one that it adopts. -/
def chosenTargets : JobDraft :=
  { draft with
    send :=
      { draft.send with
        remoteTarget := if readsRemoteTarget draft then draft.send.remoteTarget else none
        localTarget := if readsLocalTarget draft then draft.send.localTarget else ""
        localDirectory := if readsLocalDirectory draft then draft.send.localDirectory else ""
        rawRemoteTarget := if readsRawTarget draft then draft.send.rawRemoteTarget else none } }

/-- What compiling reads of a draft. -/
theorem compileSignals_congr {first second : JobDraft} (hcollect : second.collect = first.collect)
    (hprocess : second.process = first.process) (hmode : second.send.mode = first.send.mode)
    (houtput : processes first = true →
      env.fromSignalsSend second = env.fromSignalsSend first)
    (hraw : readsRawTarget first = true →
      second.send.rawRemoteTarget = first.send.rawRemoteTarget)
    (hunread : processes first = false →
      second.send.remoteTarget = first.send.remoteTarget ∧
        second.send.localTarget = first.send.localTarget ∧
        second.send.localDirectory = first.send.localDirectory) :
    compileSignals env registry identifiers second =
      compileSignals env registry identifiers first := by
  have hselection : explicitProcessSelection registry second =
      explicitProcessSelection registry first := explicitProcessSelection_congr hprocess
  have hdir : intermediateDownloadDir second = intermediateDownloadDir first := by
    rw [intermediateDownloadDir, hcollect]
    rfl
  unfold compileSignals
  rw [hcollect, hprocess, hmode, hdir]
  cases hprocesses : processes first with
  | true =>
    have hstage : (first.process.enabled && first.process.mode == .process) = true := hprocesses
    have hsame : ∀ builder : JobBuilder, builder.processSignals env registry second =
        builder.processSignals env registry first := by
      intro builder
      unfold JobBuilder.processSignals
      rw [houtput hprocesses, hselection, hraw (by rw [readsRawTarget, hprocesses]; rfl)]
    simp only [hstage, if_true, hsame]
  | false =>
    have hstage : (first.process.enabled && first.process.mode == .process) = false := hprocesses
    obtain ⟨hremote, hlocal, hdirectory⟩ := hunread hprocesses
    have hcollectOnly : ∀ builder : JobBuilder,
        builder.collectSignals second = builder.collectSignals first := by
      intro builder
      unfold JobBuilder.collectSignals
      rw [hcollect, hlocal, hdirectory]
    cases hforwards : forwards first with
    | true =>
      have hsame : ∀ builder : JobBuilder,
          builder.forwardSignals second = builder.forwardSignals first := by
        intro builder
        unfold JobBuilder.forwardSignals
        rw [hremote, hraw (by rw [readsRawTarget, hforwards, Bool.or_true])]
      simp only [hstage, Bool.false_eq_true, if_false, hsame, hcollectOnly]
    | false =>
      have hmodes : (first.process.mode == .forward && first.send.mode == .toRemote) = false :=
        hforwards
      simp only [hstage, hmodes, Bool.false_eq_true, if_false, hcollectOnly]

theorem adoptsRemoteTarget_chosenTargets (h : readsRawTarget draft = true) :
    adoptsRemoteTarget (chosenTargets draft) = adoptsRemoteTarget draft := by
  have hraw : (chosenTargets draft).send.rawRemoteTarget = draft.send.rawRemoteTarget := if_pos h
  rw [adoptsRemoteTarget, hraw]
  rfl

/-- A raw target that is read is the same with the other targets gone. -/
theorem wantedRawTarget_chosenTargets (h : readsRawTarget draft = true) :
    wantedRawTarget (chosenTargets draft) = wantedRawTarget draft := by
  have hraw : (chosenTargets draft).send.rawRemoteTarget = draft.send.rawRemoteTarget := if_pos h
  unfold wantedRawTarget
  rw [adoptsRemoteTarget_chosenTargets draft h, hraw]
  by_cases hadopted : adoptsRemoteTarget draft = true
  · have hreads : readsRemoteTarget draft = true := by
      rw [readsRemoteTarget, hadopted, Bool.or_true]
    have hremote : (chosenTargets draft).send.remoteTarget = draft.send.remoteTarget :=
      if_pos hreads
    rw [if_pos hadopted, if_pos hadopted, hremote]
  · rw [if_neg hadopted, if_neg hadopted]

/-- The output of a draft that processes is that of its send mode. -/
theorem fromSignalsSend_chosenTargets (h : processes draft = true) :
    env.fromSignalsSend (chosenTargets draft) = env.fromSignalsSend draft := by
  have hmode : (chosenTargets draft).send.mode = draft.send.mode := rfl
  unfold Environment.fromSignalsSend
  rw [hmode]
  cases hsend : draft.send.mode with
  | toRemote =>
    have hreads : readsRemoteTarget draft = true := by
      rw [readsRemoteTarget, h, hsend]
      rfl
    have hremote : (chosenTargets draft).send.remoteTarget = draft.send.remoteTarget :=
      if_pos hreads
    simp only [hremote]
  | toLocal =>
    have hreads : readsLocalTarget draft = true := by
      rw [readsLocalTarget, h, hsend]
      rfl
    have hlocal : (chosenTargets draft).send.localTarget = draft.send.localTarget :=
      if_pos hreads
    by_cases hdirectory : draft.send.localTarget = "directory"
    · have hread : readsLocalDirectory draft = true := by
        rw [readsLocalDirectory, hreads, hdirectory]
        rfl
      have hkept : (chosenTargets draft).send.localDirectory = draft.send.localDirectory :=
        if_pos hread
      simp only [hlocal, hkept]
    · simp only [hlocal, if_neg hdirectory]

/-- Drafts that differ in targets which are not read compile to the same job. -/
theorem fromSignals_congr {first second : JobDraft} (hcollect : second.collect = first.collect)
    (hprocess : second.process = first.process) (hmode : second.send.mode = first.send.mode)
    (hlocal : second.send.rawLocal = first.send.rawLocal)
    (houtput : processes first = true →
      env.fromSignalsSend second = env.fromSignalsSend first)
    (hraw : readsRawTarget first = true → offersBundle first = true →
      wantedRawTarget second = wantedRawTarget first) :
    fromSignals env registry second identifiers = fromSignals env registry first identifiers := by
  have hprocesses : processes second = processes first := by
    rw [processes, hprocess]
    rfl
  have hsaves : savesBundle second = savesBundle first := by
    rw [savesBundle, hcollect, hlocal]
    rfl
  have hoffers : offersBundle second = offersBundle first := by
    rw [offersBundle, hcollect, hsaves]
    rfl
  unfold fromSignals
  refine compileSignals_congr ?_ ?_ ?_ ?_ ?_ ?_
  · rw [normalizeTargets_eq, normalizeTargets_eq, hsaves, hcollect]
  · rw [normalizeTargets_eq, normalizeTargets_eq, hprocess]
  · rw [normalizeTargets_eq, normalizeTargets_eq, hmode]
  · rw [processes_normalizeTargets]
    intro h
    have hsend : ∀ any : JobDraft, processes any = true →
        env.fromSignalsSend any.normalizeTargets = env.fromSignalsSend any := by
      intro any hany
      rw [normalizeTargets_eq, hany]
      exact fromSignalsSend_congr rfl rfl rfl rfl
    rw [hsend first h, hsend second (hprocesses.trans h), houtput h]
  · intro hreads
    have hreads : readsRawTarget first = true := by
      rw [normalizeTargets_eq] at hreads
      exact hreads
    rw [normalizeTargets_eq, normalizeTargets_eq, hoffers]
    cases hbundle : offersBundle first with
    | true => exact hraw hreads hbundle
    | false => rfl
  · rw [processes_normalizeTargets]
    intro h
    rw [normalizeTargets_eq, normalizeTargets_eq, hprocesses, h]
    exact ⟨rfl, rfl, rfl⟩

/-- The draft with the targets of its own modes only. -/
def ownTargets : JobDraft :=
  { chosenTargets draft with
    send.remoteTarget :=
      if processes draft && draft.send.mode == .toRemote then draft.send.remoteTarget else none }

theorem not_adopts_of_processes (h : processes draft = true) :
    adoptsRemoteTarget draft = false := by
  have hstage : (draft.process.enabled && draft.process.mode == .process) = true := h
  rw [adoptsRemoteTarget, (Bool.and_eq_true_iff.mp hstage).1]
  rfl

theorem reads_of_adopts (h : adoptsRemoteTarget draft = true) : readsRawTarget draft = true := by
  simp only [adoptsRemoteTarget, Bool.and_eq_true] at h
  have hforwards : forwards draft = true := Bool.and_eq_true_iff.mpr ⟨h.1.1.2, h.1.2⟩
  rw [readsRawTarget, hforwards, Bool.or_true]

/-- Without a remote target to adopt, a draft reads the targets of its own modes. -/
theorem fromSignals_ownTargets
    (h : offersBundle draft = true → adoptsRemoteTarget draft = true →
      draft.send.remoteTarget.filter notBlank = none) :
    fromSignals env registry (ownTargets draft) identifiers =
      fromSignals env registry draft identifiers := by
  refine fromSignals_congr rfl rfl rfl rfl ?_ ?_
  · intro hprocesses
    have hown : ownTargets draft = chosenTargets draft := by
      simp only [ownTargets, chosenTargets, readsRemoteTarget,
        not_adopts_of_processes draft hprocesses, Bool.or_false]
    rw [hown, fromSignalsSend_chosenTargets draft hprocesses]
  · intro hreads hbundle
    rw [← wantedRawTarget_chosenTargets draft hreads]
    have hsame : adoptsRemoteTarget (ownTargets draft) =
        adoptsRemoteTarget (chosenTargets draft) := rfl
    unfold wantedRawTarget
    rw [hsame]
    by_cases hadopted : adoptsRemoteTarget (chosenTargets draft) = true
    · -- Both drafts adopt a blank target, or none.
      have hadopts : adoptsRemoteTarget draft = true :=
        (adoptsRemoteTarget_chosenTargets draft hreads).symm.trans hadopted
      have hprocesses : processes draft = false := by
        by_contra hne
        rw [not_adopts_of_processes draft (Bool.not_eq_false _ ▸ hne)] at hadopts
        exact absurd hadopts (by decide)
      have hchosen : (chosenTargets draft).send.remoteTarget = draft.send.remoteTarget :=
        if_pos (by rw [readsRemoteTarget, hadopts, Bool.or_true])
      have hown : (ownTargets draft).send.remoteTarget = none :=
        if_neg (by simp [hprocesses])
      rw [if_pos hadopted, if_pos hadopted, hchosen, hown, h hbundle hadopts]
      rfl
    · rw [if_neg hadopted, if_neg hadopted]
      rfl

/-- What is asked of the targets of a draft: after normalization they fit what it selects,
those of the two send modes exclude one another, a raw target has a reader and is the
draft's own, normalizing again changes nothing, and compiling reads the targets of the
draft's own modes. -/
structure TargetsSettled : Prop where
  normal : TargetsNormal draft.normalizeTargets
  exclusive : draft.normalizeTargets.send.remoteTarget = none ∨
    draft.normalizeTargets.send.localTarget = "" ∧
      draft.normalizeTargets.send.localDirectory = ""
  read : draft.normalizeTargets.send.rawRemoteTarget ≠ none → readsRawTarget draft = true
  own : draft.normalizeTargets.send.rawRemoteTarget = none ∨
    draft.normalizeTargets.send.rawRemoteTarget = draft.send.rawRemoteTarget
  again : draft.normalizeTargets.normalizeTargets = draft.normalizeTargets
  fresh : ∀ env registry identifiers, fromSignals env registry (ownTargets draft) identifiers =
    fromSignals env registry draft identifiers

/-- No target is left from another mode: a draft that processes has the targets of one
send mode, and where a bundle is offered, a raw target belongs to a draft that processes
or forwards, and a forward does not adopt a remote target. -/
structure NoTargetLeft : Prop where
  exclusive : processes draft = true →
    draft.send.remoteTarget = none ∨
      draft.send.localTarget = "" ∧ draft.send.localDirectory = ""
  read : offersBundle draft = true → draft.send.rawRemoteTarget.filter notBlank ≠ none →
    readsRawTarget draft = true
  own : offersBundle draft = true → adoptsRemoteTarget draft = true →
    draft.send.remoteTarget.filter notBlank = none

/-- A draft's targets are settled exactly when none is left from another mode. -/
theorem targetsSettled_iff : TargetsSettled draft ↔ NoTargetLeft draft := by
  have hraw : draft.normalizeTargets.send.rawRemoteTarget =
      if offersBundle draft then wantedRawTarget draft else none := by
    rw [normalizeTargets_eq]
  constructor
  · intro h
    refine ⟨?_, ?_, ?_⟩
    · intro hprocesses
      have hexclusive := h.exclusive
      rw [normalizeTargets_eq, hprocesses] at hexclusive
      exact hexclusive
    · intro hbundle htarget
      by_cases hadopts : adoptsRemoteTarget draft = true
      · simp only [adoptsRemoteTarget, Bool.and_eq_true, Option.isNone_iff_eq_none] at hadopts
        exact absurd hadopts.2 htarget
      · refine h.read ?_
        rwa [hraw, if_pos hbundle, wantedRawTarget, if_neg hadopts]
    · intro hbundle hadopts
      rcases h.own with hnone | hown
      · rwa [hraw, if_pos hbundle, wantedRawTarget, if_pos hadopts] at hnone
      · -- The draft's own raw target is blank, the adopted one is not.
        rw [hraw, if_pos hbundle, wantedRawTarget, if_pos hadopts] at hown
        simp only [adoptsRemoteTarget, Bool.and_eq_true, Option.isNone_iff_eq_none] at hadopts
        rw [← hown, Option.filter_filter] at hadopts
        simpa using hadopts.2
  · intro h
    have hnormal := targetsNormal_normalizeTargets draft
    refine ⟨hnormal, ?_, ?_, ?_, normalizeTargets_eq_self_iff.mpr hnormal, ?_⟩
    · cases hprocesses : processes draft with
      | true =>
        rw [normalizeTargets_eq, hprocesses]
        exact h.exclusive hprocesses
      | false =>
        rw [normalizeTargets_eq, hprocesses]
        exact Or.inl rfl
    · intro htarget
      by_cases hbundle : offersBundle draft = true
      · rw [hraw, if_pos hbundle, wantedRawTarget] at htarget
        by_cases hadopts : adoptsRemoteTarget draft = true
        · exact reads_of_adopts draft hadopts
        · rw [if_neg hadopts] at htarget
          exact h.read hbundle htarget
      · rw [hraw, if_neg hbundle] at htarget
        exact absurd rfl htarget
    · by_cases hbundle : offersBundle draft = true
      · rw [hraw, if_pos hbundle, wantedRawTarget]
        by_cases hadopts : adoptsRemoteTarget draft = true
        · rw [if_pos hadopts]
          exact Or.inl (h.own hbundle hadopts)
        · rw [if_neg hadopts]
          cases draft.send.rawRemoteTarget with
          | none => exact Or.inl rfl
          | some target =>
            rw [Option.filter_some]
            split_ifs
            · exact Or.inr rfl
            · exact Or.inl rfl
      · rw [hraw, if_neg hbundle]
        exact Or.inl rfl
    · exact fun env registry identifiers => fromSignals_ownTargets draft h.own

/-- Normalization establishes and keeps the invariant of the targets, once is enough, and
compiling reads the targets of the modes and the adopted one. No target of another mode is
kept or read exactly when none was left. -/
theorem targets_normalized :
    TargetsNormal draft.normalizeTargets ∧
      draft.normalizeTargets.normalizeTargets = draft.normalizeTargets ∧
      (draft.normalizeTargets = draft ↔ TargetsNormal draft) ∧
      fromSignals env registry (chosenTargets draft) identifiers =
        fromSignals env registry draft identifiers ∧
      (TargetsSettled draft ↔ NoTargetLeft draft) := by
  have hnormal := targetsNormal_normalizeTargets draft
  refine ⟨hnormal, normalizeTargets_eq_self_iff.mpr hnormal, normalizeTargets_eq_self_iff, ?_,
    targetsSettled_iff draft⟩
  refine fromSignals_congr rfl rfl rfl rfl ?_ ?_
  · exact fun hprocesses => fromSignalsSend_chosenTargets draft hprocesses
  · exact fun hreads _ => wantedRawTarget_chosenTargets draft hreads

end Reading

/-- A draft with an output for either mode, of which the local one is chosen. -/
def bothModesDraft : JobDraft :=
  { keepingDraft with send := ⟨.toLocal, some "prod", "directory", "/tmp/documents", none, false⟩ }

/-- A draft that only collects, with an upload from before. -/
def collectingDraft : JobDraft :=
  { forwardingDraft with send := ⟨.toLocal, none, "", "", some "abc123", false⟩ }

/-- A draft that forwards, with the output host from before. -/
def switchedDraft : JobDraft :=
  { forwardingDraft with send := ⟨.toRemote, some "prod", "", "", none, false⟩ }

/-- The targets of both modes stay set, a raw target stays where nothing reads
it, and a forward takes the host of an output for the id of its upload. -/
theorem targets_left_behind :
    (bothModesDraft.normalizeTargets.send.remoteTarget = some "prod" ∧
        bothModesDraft.normalizeTargets.send.localTarget = "directory") ∧
      (collectingDraft.normalizeTargets.send.rawRemoteTarget = some "abc123" ∧
        readsRawTarget collectingDraft.normalizeTargets = false) ∧
      fromSignals sampleEnvironment .empty switchedDraft sampleIdentifiers =
        .ok { forwardingJob with send := some ⟨"prod"⟩, valid := by decide } ∧
      ¬ TargetsSettled switchedDraft := by
  refine ⟨⟨rfl, rfl⟩, ⟨rfl, rfl⟩, rfl, ?_⟩
  intro h
  -- The normalized draft has a raw target that the draft did not have.
  rcases h.own with hnone | hown
  · exact absurd hnone (by decide)
  · exact absurd hown (by decide)

end Esdiag.DraftTargets
