import Esdiag.KeystoreOperations

/-!
What any sequence of operations on the keystore keeps. An operation that fails
leaves the file alone, one that succeeds changes the secrets it names and stores
no empty entry, and a name is listed unless the last operation that succeeded on
it took its whole entry away. Removing one part of an entry that holds two
leaves the name listed.
-/
namespace Esdiag.KeystoreInvariants

open KeyedMaps SealedEnvelopes Keystores KeystoreOperations

inductive Operation where
  | addSecret (secretId : String) (username password apikey : Option String)
  | updateSecret (secretId : String) (username password apikey : Option String)
  | upsertSecretAuth (secretId : String) (auth : SecretAuth)
  | upsertSecretAuthBatch (entries : List (String × SecretAuth))
  | removeSecret (unreferenced : Except KeystoreError Unit) (secretId : String)
      (expected : Option SecretAuth)

namespace Operation

/-- The secrets that an operation names. -/
def names : Operation → List String
  | addSecret secretId .. | updateSecret secretId .. | upsertSecretAuth secretId _
  | removeSecret _ secretId _ => [secretId]
  | upsertSecretAuthBatch entries => entries.map Prod.fst

def isRemoval : Operation → Bool
  | removeSecret .. => true
  | _ => false

/-- Whether an operation on this keystore takes the whole entry of its name. -/
def takesEntry (store : KeystoreData) : Operation → Bool
  | removeSecret _ _ none => true
  | removeSecret _ secretId (some expected) =>
    ((store.secrets.find? secretId).getD .default).removeAuth expected |>.isEmpty
  | _ => false

end Operation

/-- An operation with its password and its attempt at the write. -/
structure Request where
  operation : Operation
  password : String
  attempt : WriteAttempt

section Runs

variable {Key : Type} (libs : Libraries Key)

def Request.run (request : Request) (file : SealedFile) : Except KeystoreError Unit × SealedFile :=
  match request.operation with
  | .addSecret secretId username password apikey =>
    addSecret libs file secretId username password apikey request.password request.attempt
  | .updateSecret secretId username password apikey =>
    updateSecret libs file secretId username password apikey request.password request.attempt
  | .upsertSecretAuth secretId auth =>
    upsertSecretAuth libs file secretId auth request.password request.attempt
  | .upsertSecretAuthBatch entries =>
    upsertSecretAuthBatch libs file entries request.password request.attempt
  | .removeSecret unreferenced secretId expected =>
    removeSecret libs file unreferenced secretId expected request.password request.attempt

def runAll (file : SealedFile) (requests : List Request) : SealedFile :=
  requests.foldl (fun file request => (request.run libs file).2) file

/-- A successful operation with the keystore it was applied to. -/
def Request.success (request : Request) (file : SealedFile) : Option (Operation × KeystoreData) :=
  match (request.run libs file).1, readStore libs file request.password with
  | .ok (), .ok store => some (request.operation, store)
  | _, _ => none

/-- The operations of a run that succeeded, in their order. -/
def successes (file : SealedFile) : List Request → List (Operation × KeystoreData)
  | [] => []
  | request :: rest =>
    (request.success libs file).toList ++ successes (request.run libs file).2 rest

/-- The content of a file, for whoever has its password. -/
def Holds (file : SealedFile) (store : KeystoreData) : Prop :=
  ∃ password, readStore libs file password = .ok store

/-- A file that shows the same keystore to everyone who can read it. -/
def Unambiguous (file : SealedFile) : Prop :=
  ∀ store other, Holds libs file store → Holds libs file other → store = other

/-- The last success that names a secret. -/
def lastSuccess (name : String) (done : List (Operation × KeystoreData)) :
    Option (Operation × KeystoreData) :=
  (done.filter fun success => success.1.names.contains name).getLast?

end Runs

def NoEmptyEntry (store : KeystoreData) : Prop :=
  ∀ name entry, store.secrets.find? name = some entry → entry.isEmpty = false

section Changes

/-- What a change by an operation does to the secrets. -/
structure ChangeSpec (operation : Operation) (store changed : KeystoreData) : Prop where
  frame : ∀ name, name ∉ operation.names →
    changed.secrets.find? name = store.secrets.find? name
  noEmptyEntry : NoEmptyEntry store → NoEmptyEntry changed
  listed : ∀ name, name ∈ operation.names →
    (changed.secrets.find? name).isSome = !operation.takesEntry store

theorem find?_upsertEntryAuth (secretId name : String) (auth : SecretAuth)
    (store : KeystoreData) :
    (upsertEntryAuth secretId auth store).secrets.find? name =
      if name = secretId then
        some (((store.secrets.find? secretId).getD .default).upsertAuth auth)
      else store.secrets.find? name := KeyedMap.find?_upsert _ secretId name _

theorem noEmptyEntry_upsertEntryAuth {store : KeystoreData} (h : NoEmptyEntry store)
    (secretId : String) (auth : SecretAuth) :
    NoEmptyEntry (upsertEntryAuth secretId auth store) := by
  intro name entry hentry
  rw [find?_upsertEntryAuth] at hentry
  by_cases hname : name = secretId
  · rw [if_pos hname] at hentry
    rw [← Option.some.inj hentry]
    exact SecretEntry.isEmpty_upsertAuth _ _
  · rw [if_neg hname] at hentry
    exact h name entry hentry

/-- A change of one name, which leaves an entry there that is not empty, or none. -/
theorem changeSpec_of_find? {operation : Operation} {secretId : String}
    {store changed : KeystoreData} {result : Option SecretEntry}
    (hnames : operation.names = [secretId])
    (hfind : ∀ name, changed.secrets.find? name =
      if name = secretId then result else store.secrets.find? name)
    (hresult : ∀ entry, result = some entry → entry.isEmpty = false)
    (htakes : result.isSome = !operation.takesEntry store) :
    ChangeSpec operation store changed where
  frame name hname := by
    rw [hnames, List.mem_singleton] at hname
    rw [hfind, if_neg hname]
  noEmptyEntry h name entry hentry := by
    rw [hfind] at hentry
    split at hentry
    · exact hresult entry hentry
    · exact h name entry hentry
  listed name hname := by
    rw [hnames, List.mem_singleton] at hname
    rw [hfind, if_pos hname, htakes]

/-- Storing a credential under a name, whatever was there. -/
theorem upsertEntryAuth_spec {operation : Operation} {secretId : String}
    (hnames : operation.names = [secretId]) (htakes : ∀ store, operation.takesEntry store = false)
    (auth : SecretAuth) (store : KeystoreData) :
    ChangeSpec operation store (upsertEntryAuth secretId auth store) := by
  refine changeSpec_of_find? hnames (fun name => find?_upsertEntryAuth secretId name auth store)
    ?_ ?_
  · rintro entry ⟨⟩
    exact SecretEntry.isEmpty_upsertAuth _ _
  · rw [htakes]
    rfl

theorem updateChange_spec {secretId : String} {username password apikey : Option String}
    {auth : SecretAuth} {store changed : KeystoreData}
    (h : updateChange secretId auth store = .ok (some changed)) :
    ChangeSpec (.updateSecret secretId username password apikey) store changed := by
  unfold updateChange at h
  cases hfind : store.secrets.find? secretId with
  | none => simp [hfind] at h
  | some old =>
    have hchanged : changed = { store with
        secrets := store.secrets.insert secretId (SecretEntry.default.upsertAuth auth) } := by
      simpa [hfind] using h.symm
    subst hchanged
    refine changeSpec_of_find? rfl (fun name => KeyedMap.find?_insert _ secretId name _) ?_ rfl
    rintro entry ⟨⟩
    exact SecretEntry.isEmpty_upsertAuth _ _

/-- A batch stores every credential that it lists, and touches no other name. -/
theorem foldl_upsertEntryAuth_spec (entries : List (String × SecretAuth)) (store : KeystoreData) :
    ChangeSpec (.upsertSecretAuthBatch entries) store
      (entries.foldl (fun store e => upsertEntryAuth e.1 e.2 store) store) := by
  induction entries generalizing store with
  | nil =>
    refine ⟨fun _ _ => rfl, fun h => h, fun name hname => ?_⟩
    simp [Operation.names] at hname
  | cons entry rest ih =>
    obtain ⟨secretId, auth⟩ := entry
    have hrest := ih (upsertEntryAuth secretId auth store)
    refine ⟨fun name hname => ?_, fun h => ?_, fun name hname => ?_⟩
    · simp only [Operation.names, List.map_cons, List.mem_cons, not_or] at hname
      rw [List.foldl_cons, hrest.frame name hname.2, find?_upsertEntryAuth, if_neg hname.1]
    · exact hrest.noEmptyEntry (noEmptyEntry_upsertEntryAuth h secretId auth)
    · by_cases hmem : name ∈ rest.map Prod.fst
      · exact hrest.listed name hmem
      · simp only [Operation.names, List.map_cons, List.mem_cons, hmem, or_false] at hname
        rw [List.foldl_cons, hrest.frame name hmem, find?_upsertEntryAuth, if_pos hname]
        rfl

/-- A removal is decided on after the check, for a name that exists. -/
theorem removeChange_eq_ok {unreferenced : Except KeystoreError Unit} {secretId : String}
    {expected : Option SecretAuth} {store : KeystoreData} {result : Option KeystoreData}
    (h : removeChange unreferenced secretId expected store = .ok result) :
    unreferenced = .ok () ∧ (store.secrets.find? secretId).isSome ∧
      ∃ changed, result = some changed := by
  unfold removeChange at h
  cases hfind : store.secrets.find? secretId with
  | none => simp [hfind] at h
  | some entry =>
    cases unreferenced with
    | error error => simp [hfind] at h
    | ok _ =>
      refine ⟨rfl, rfl, ?_⟩
      cases expected with
      | none =>
        simp only [hfind, Except.ok.injEq] at h
        exact ⟨_, h.symm⟩
      | some expected =>
        by_cases hcontains : entry.containsAuth expected = true
        · simp only [hfind, if_pos hcontains, Except.ok.injEq] at h
          exact ⟨_, h.symm⟩
        · simp [hfind, hcontains] at h

theorem removeChange_spec {unreferenced : Except KeystoreError Unit} {secretId : String}
    {expected : Option SecretAuth} {store changed : KeystoreData}
    (h : removeChange unreferenced secretId expected store = .ok (some changed)) :
    ChangeSpec (.removeSecret unreferenced secretId expected) store changed := by
  have hremove (takes : (Operation.removeSecret unreferenced secretId expected).takesEntry
      store = true) : ChangeSpec (.removeSecret unreferenced secretId expected) store
        { store with secrets := store.secrets.remove secretId } :=
    changeSpec_of_find? rfl (fun name => KeyedMap.find?_remove _ secretId name) nofun
      (by rw [takes]; rfl)
  unfold removeChange at h
  cases hfind : store.secrets.find? secretId with
  | none => simp [hfind] at h
  | some entry =>
    cases unreferenced with
    | error error => simp [hfind] at h
    | ok _ =>
      cases expected with
      | none =>
        obtain rfl : { store with secrets := store.secrets.remove secretId } = changed := by
          simpa [hfind] using h
        exact hremove rfl
      | some expected =>
        by_cases hcontains : entry.containsAuth expected = true
        · by_cases hempty : (entry.removeAuth expected).isEmpty = true
          · obtain rfl : { store with secrets := store.secrets.remove secretId } = changed := by
              simpa [hfind, hcontains, hempty] using h
            exact hremove (by simpa [Operation.takesEntry, hfind] using hempty)
          · have hchanged : changed = { store with
                secrets := store.secrets.insert secretId (entry.removeAuth expected) } := by
              simpa [hfind, hcontains, hempty] using h.symm
            subst hchanged
            refine changeSpec_of_find? rfl
              (fun name => KeyedMap.find?_insert _ secretId name _) ?_ ?_
            · rintro other ⟨⟩
              simpa using hempty
            · simp [Operation.takesEntry, hfind, hempty]
        · simp [hfind, hcontains] at h

/-- What a decision makes of a keystore is a change by the operation. -/
structure Realizes (operation : Operation)
    (change : KeystoreData → Except KeystoreError (Option KeystoreData)) : Prop where
  kept : ∀ store, change store = .ok none → operation.names = []
  changed : ∀ store changed, change store = .ok (some changed) →
    ChangeSpec operation store changed

theorem realizes_addChange (secretId : String) (username password apikey : Option String)
    (auth : SecretAuth) :
    Realizes (.addSecret secretId username password apikey) (addChange secretId auth) where
  kept store h := by
    cases hfind : store.secrets.find? secretId <;> simp [addChange, hfind] at h
  changed store changed h := by
    cases hfind : store.secrets.find? secretId with
    | some entry => simp [addChange, hfind] at h
    | none =>
      obtain rfl : upsertEntryAuth secretId auth store = changed := by
        simpa [addChange, hfind] using h
      exact upsertEntryAuth_spec rfl (fun _ => rfl) auth store

theorem realizes_updateChange (secretId : String) (username password apikey : Option String)
    (auth : SecretAuth) :
    Realizes (.updateSecret secretId username password apikey) (updateChange secretId auth) where
  kept store h := by
    cases hfind : store.secrets.find? secretId <;> simp [updateChange, hfind] at h
  changed _ _ h := updateChange_spec h

theorem realizes_upsertChange (secretId : String) (auth : SecretAuth) :
    Realizes (.upsertSecretAuth secretId auth) (upsertChange secretId auth) where
  kept store h := by simp [upsertChange] at h
  changed store changed h := by
    obtain rfl : upsertEntryAuth secretId auth store = changed := by
      simpa [upsertChange] using h
    exact upsertEntryAuth_spec rfl (fun _ => rfl) auth store

theorem realizes_batchChange (entries : List (String × SecretAuth)) :
    Realizes (.upsertSecretAuthBatch entries) (batchChange entries) where
  kept store h := by
    cases entries with
    | nil => rfl
    | cons entry rest => simp [batchChange] at h
  changed store changed h := by
    cases entries with
    | nil => simp [batchChange] at h
    | cons entry rest =>
      obtain rfl := Option.some.inj (Except.ok.inj h)
      exact foldl_upsertEntryAuth_spec (entry :: rest) store

theorem realizes_removeChange (unreferenced : Except KeystoreError Unit) (secretId : String)
    (expected : Option SecretAuth) :
    Realizes (.removeSecret unreferenced secretId expected)
      (removeChange unreferenced secretId expected) where
  kept store h := by
    obtain ⟨-, -, changed, hchanged⟩ := removeChange_eq_ok h
    cases hchanged
  changed _ _ h := removeChange_spec h

end Changes

section Steps

variable {Key : Type} (libs : Libraries Key)

/-- What the common frame can do with a decision that realizes an operation. -/
theorem modifyStore_realizes (file : SealedFile) (password : String) (attempt : WriteAttempt)
    {operation : Operation} {change : KeystoreData → Except KeystoreError (Option KeystoreData)}
    (h : Realizes operation change) :
    (∃ error, modifyStore libs file password attempt change = (.error error, file)) ∨
    (∃ store, readStore libs file password = .ok store ∧ operation.names = [] ∧
      modifyStore libs file password attempt change = (.ok (), file)) ∨
    ∃ store changed written, readStore libs file password = .ok store ∧
      ChangeSpec operation store changed ∧ writeStore libs attempt password changed = .ok written ∧
      modifyStore libs file password attempt change = (.ok (), written) := by
  rcases modifyStore_cases libs file password attempt change with
    herror | ⟨store, hread, hchange, hrun⟩ |
      ⟨store, changed, written, hread, hchange, hwrite, hrun⟩
  · exact Or.inl herror
  · exact Or.inr (Or.inl ⟨store, hread, h.kept store hchange, hrun⟩)
  · exact Or.inr (Or.inr ⟨store, changed, written, hread, h.changed store changed hchange, hwrite,
      hrun⟩)

/-- What one request can do to the file. -/
theorem Request.run_cases (request : Request) (file : SealedFile) :
    (∃ error, request.run libs file = (.error error, file)) ∨
    (∃ store, readStore libs file request.password = .ok store ∧
      request.operation.names = [] ∧ request.run libs file = (.ok (), file)) ∨
    ∃ store changed written, readStore libs file request.password = .ok store ∧
      ChangeSpec request.operation store changed ∧
      writeStore libs request.attempt request.password changed = .ok written ∧
      request.run libs file = (.ok (), written) := by
  obtain ⟨operation, password, attempt⟩ := request
  cases operation with
  | addSecret secretId username password' apikey =>
    cases hauth : parseSecretAuth username password' apikey with
    | error error => exact Or.inl ⟨error, by simp only [Request.run, addSecret, hauth]⟩
    | ok auth =>
      have hrun : Request.run libs ⟨.addSecret secretId username password' apikey, password,
          attempt⟩ file = modifyStore libs file password attempt (addChange secretId auth) := by
        simp only [Request.run, addSecret, hauth]
      rw [hrun]
      exact modifyStore_realizes libs file password attempt
        (realizes_addChange secretId username password' apikey auth)
  | updateSecret secretId username password' apikey =>
    cases hauth : parseSecretAuth username password' apikey with
    | error error => exact Or.inl ⟨error, by simp only [Request.run, updateSecret, hauth]⟩
    | ok auth =>
      have hrun : Request.run libs ⟨.updateSecret secretId username password' apikey, password,
          attempt⟩ file = modifyStore libs file password attempt (updateChange secretId auth) := by
        simp only [Request.run, updateSecret, hauth]
      rw [hrun]
      exact modifyStore_realizes libs file password attempt
        (realizes_updateChange secretId username password' apikey auth)
  | upsertSecretAuth secretId auth =>
    exact modifyStore_realizes libs file password attempt (realizes_upsertChange secretId auth)
  | upsertSecretAuthBatch entries =>
    exact modifyStore_realizes libs file password attempt (realizes_batchChange entries)
  | removeSecret unreferenced secretId expected =>
    exact modifyStore_realizes libs file password attempt
      (realizes_removeChange unreferenced secretId expected)

variable {libs}

theorem unambiguous_absent : Unambiguous libs .absent := by
  intro store other ⟨_, hstore⟩ ⟨_, hother⟩
  rw [← Except.ok.inj hstore, ← Except.ok.inj hother]

theorem unambiguous_of_writeStore (hlib : libs.sealing.Lawful) {attempt : WriteAttempt}
    {password : String} {store : KeystoreData} {file : SealedFile}
    (h : writeStore libs attempt password store = .ok file) : Unambiguous libs file := by
  intro one other ⟨_, hone⟩ ⟨_, hother⟩
  rw [eq_of_readStore_writeStore hlib h hone, eq_of_readStore_writeStore hlib h hother]

theorem Request.unambiguous_run (hlib : libs.sealing.Lawful) (request : Request)
    {file : SealedFile} (hfile : Unambiguous libs file) :
    Unambiguous libs (request.run libs file).2 := by
  rcases request.run_cases libs file with
    ⟨error, hrun⟩ | ⟨store, hread, hnames, hrun⟩ | ⟨store, changed, written, hread, hspec, hwrite,
      hrun⟩
  · rw [hrun]
    exact hfile
  · rw [hrun]
    exact hfile
  · rw [hrun]
    exact unambiguous_of_writeStore hlib hwrite

/-- A request keeps the content or, when it succeeds, changes it as its operation does. -/
theorem Request.holds_run (hlib : libs.sealing.Lawful) (request : Request) {file : SealedFile}
    (hfile : Unambiguous libs file) {changed : KeystoreData}
    (hchanged : Holds libs (request.run libs file).2 changed) :
    ∃ store, Holds libs file store ∧
      ((request.success libs file = none ∧ changed = store) ∨
        (request.success libs file = some (request.operation, store) ∧
          ChangeSpec request.operation store changed)) := by
  rcases request.run_cases libs file with
    ⟨error, hrun⟩ | ⟨store, hread, hnames, hrun⟩ | ⟨store, written, file', hread, hspec, hwrite,
      hrun⟩
  · rw [hrun] at hchanged
    refine ⟨changed, hchanged, Or.inl ⟨?_, rfl⟩⟩
    simp [Request.success, hrun]
  · rw [hrun] at hchanged
    obtain rfl := hfile changed store hchanged ⟨request.password, hread⟩
    refine ⟨changed, hchanged, Or.inr ⟨?_, fun _ _ => rfl, fun h => h, fun name hname => ?_⟩⟩
    · simp [Request.success, hrun, hread]
    · rw [hnames] at hname
      exact absurd hname List.not_mem_nil
  · rw [hrun] at hchanged
    obtain ⟨reader, hreader⟩ := hchanged
    obtain rfl := eq_of_readStore_writeStore hlib hwrite hreader
    refine ⟨store, ⟨request.password, hread⟩, Or.inr ⟨?_, hspec⟩⟩
    simp [Request.success, hrun, hread]

/-- On a keystore that its password does not open, a request fails and writes nothing. -/
theorem Request.run_of_readStore_error {request : Request} {file : SealedFile}
    {error : KeystoreError} (h : readStore libs file request.password = .error error) :
    ∃ error, request.run libs file = (.error error, file) := by
  rcases request.run_cases libs file with
    hrun | ⟨store, hread, _⟩ | ⟨store, changed, written, hread, _⟩
  · exact hrun
  · rw [h] at hread
    cases hread
  · rw [h] at hread
    cases hread

end Steps

section Histories

variable {Key : Type} {libs : Libraries Key}

theorem lastSuccess_append (name : String) (before after : List (Operation × KeystoreData)) :
    lastSuccess name (before ++ after) = (lastSuccess name after).or (lastSuccess name before) := by
  unfold lastSuccess
  rw [List.filter_append, List.getLast?_append]

theorem lastSuccess_singleton (name : String) (success : Operation × KeystoreData) :
    lastSuccess name [success] = if name ∈ success.1.names then some success else none := by
  unfold lastSuccess
  by_cases hname : name ∈ success.1.names
  · simp [hname]
  · simp [hname]

/-- Whether a name is listed, by the last success on it and by what was listed before. -/
def listedAfter (name : String) (start : KeystoreData)
    (done : List (Operation × KeystoreData)) : Bool :=
  match lastSuccess name done with
  | some (operation, store) => !operation.takesEntry store
  | none => (start.secrets.find? name).isSome

theorem listedAfter_append {name : String} {start middle : KeystoreData}
    {before after : List (Operation × KeystoreData)}
    (hmiddle : (middle.secrets.find? name).isSome = listedAfter name start before) :
    listedAfter name start (before ++ after) = listedAfter name middle after := by
  unfold listedAfter at hmiddle ⊢
  rw [lastSuccess_append]
  cases hafter : lastSuccess name after with
  | some success => simp
  | none => simp [hmiddle]

/-- The content after a run, from the content before it and its successes. -/
theorem holds_runAll (hlib : libs.sealing.Lawful) {file : SealedFile}
    (hfile : Unambiguous libs file) (requests : List Request) {last : KeystoreData}
    (hlast : Holds libs (runAll libs file requests) last) :
    ∃ start, Holds libs file start ∧ (NoEmptyEntry start → NoEmptyEntry last) ∧
      ∀ name, (last.secrets.find? name).isSome =
        listedAfter name start (successes libs file requests) := by
  induction requests generalizing file with
  | nil => exact ⟨last, hlast, fun h => h, fun name => rfl⟩
  | cons request rest ih =>
    obtain ⟨middle, hmiddle, hempty, hlisted⟩ := ih (request.unambiguous_run hlib hfile) hlast
    obtain ⟨start, hstart, ⟨hnone, rfl⟩ | ⟨hsome, hspec⟩⟩ := request.holds_run hlib hfile hmiddle
    · refine ⟨middle, hstart, hempty, fun name => ?_⟩
      rw [hlisted name, successes, hnone]
      rfl
    · refine ⟨start, hstart, fun h => hempty (hspec.noEmptyEntry h), fun name => ?_⟩
      have hone : (middle.secrets.find? name).isSome =
          listedAfter name start [(request.operation, start)] := by
        unfold listedAfter
        rw [lastSuccess_singleton]
        by_cases hname : name ∈ request.operation.names
        · rw [if_pos hname]
          exact hspec.listed name hname
        · rw [if_neg hname, hspec.frame name hname]
      rw [hlisted name, successes, hsome]
      exact (listedAfter_append hone).symm

/-- The file before a request of a run is as the requests before it left it; it is
changed by no failure, and elsewhere than at the names of a success it is kept. -/
theorem secrets_follow_last_success (hlib : libs.sealing.Lawful) (file : SealedFile)
    (hfile : Unambiguous libs file) (requests : List Request) :
    (∀ before request after, requests = before ++ request :: after →
      ((∃ error, (request.run libs (runAll libs file before)).1 = .error error) →
        (request.run libs (runAll libs file before)).2 = runAll libs file before) ∧
      ((∃ error, readStore libs (runAll libs file before) request.password = .error error) →
        ∃ error, request.run libs (runAll libs file before) =
          (.error error, runAll libs file before)) ∧
      ∀ store changed, Holds libs (runAll libs file before) store →
        Holds libs (request.run libs (runAll libs file before)).2 changed →
        ∀ name, name ∉ request.operation.names →
          changed.secrets.find? name = store.secrets.find? name) ∧
    ∀ last, Holds libs (runAll libs file requests) last →
      ∃ start, Holds libs file start ∧
        (NoEmptyEntry start → NoEmptyEntry last) ∧
        ∀ password names, listSecretNames libs (runAll libs file requests) password = .ok names →
          names.Nodup ∧
          ∀ name, name ∈ names ↔
            listedAfter name start (successes libs file requests) = true := by
  have hkept : ∀ before : List Request, Unambiguous libs (runAll libs file before) := by
    intro before
    induction before using List.reverseRecOn with
    | nil => exact hfile
    | append_singleton before request ih =>
      unfold runAll at ih ⊢
      rw [List.foldl_append]
      exact request.unambiguous_run hlib ih
  refine ⟨fun before request after _ => ⟨?_, ?_, ?_⟩, fun last hlast => ?_⟩
  · rintro ⟨error, herror⟩
    rcases request.run_cases libs (runAll libs file before) with
      ⟨_, hrun⟩ | ⟨store, _, _, hrun⟩ | ⟨store, changed, written, _, _, _, hrun⟩
    · rw [hrun]
    · rw [hrun]
    · rw [hrun] at herror
      cases herror
  · rintro ⟨error, herror⟩
    exact Request.run_of_readStore_error herror
  · intro store changed hstore hchanged name hname
    obtain ⟨held, hheld, ⟨-, rfl⟩ | ⟨-, hspec⟩⟩ :=
      request.holds_run hlib (hkept before) hchanged
    · rw [hkept before _ _ hstore hheld]
    · rw [hkept before _ _ hstore hheld]
      exact hspec.frame name hname
  · obtain ⟨start, hstart, hempty, hlisted⟩ := holds_runAll hlib hfile requests hlast
    refine ⟨start, hstart, hempty, fun password names hnames => ?_⟩
    cases hread : readStore libs (runAll libs file requests) password with
    | error error =>
      rw [listSecretNames, hread] at hnames
      cases hnames
    | ok store =>
      obtain rfl : store.secrets.inOrder.map Prod.fst = names := by
        rw [listSecretNames, hread] at hnames
        exact Except.ok.inj hnames
      obtain rfl := hkept requests _ _ hlast ⟨password, hread⟩
      have hperm := last.secrets.inOrder_perm.map Prod.fst
      refine ⟨hperm.nodup_iff.mpr last.secrets.nodup_keys, fun name => ?_⟩
      rw [← hlisted name, KeyedMap.find?_isSome_iff, hperm.mem_iff]

/-- A request that succeeds stands before the successes of the rest. -/
theorem successes_cons {request : Request} {rest : List Request} {file written : SealedFile}
    {store : KeystoreData} (hrun : request.run libs file = (.ok (), written))
    (hread : readStore libs file request.password = .ok store) :
    successes libs file (request :: rest) =
      (request.operation, store) :: successes libs written rest := by
  rw [successes, Request.success, hrun, hread]
  rfl

theorem runAll_cons {request : Request} {rest : List Request} {file written : SealedFile}
    (hrun : request.run libs file = (.ok (), written)) :
    runAll libs file (request :: rest) = runAll libs written rest := by
  rw [runAll, List.foldl_cons, hrun]
  rfl

/-- A user and an API key under one name, of which the API key is removed. -/
def partialRemoval : List Request :=
  [⟨.upsertSecretAuth "prod" (.basic "elastic" "changeme"), "pw", sampleAttempt⟩,
    ⟨.upsertSecretAuth "prod" (.apiKey "key"), "pw", sampleAttempt⟩,
    ⟨.removeSecret (.ok ()) "prod" (some (.apiKey "key")), "pw", sampleAttempt⟩]

def remainingUser : KeystoreData :=
  { KeystoreData.default with
    secrets := KeyedMap.empty.insert "prod" ⟨none, some ⟨"elastic", "changeme"⟩⟩ }

def bothParts : KeystoreData := upsertEntryAuth "prod" (.apiKey "key") remainingUser

/-- All three requests succeed, and the user is left. -/
theorem partialRemoval_succeeds :
    successes sampleLibraries .absent partialRemoval =
      [(.upsertSecretAuth "prod" (.basic "elastic" "changeme"), .default),
        (.upsertSecretAuth "prod" (.apiKey "key"), remainingUser),
        (.removeSecret (.ok ()) "prod" (some (.apiKey "key")), bothParts)] ∧
    readStore sampleLibraries (runAll sampleLibraries .absent partialRemoval) "pw" =
      .ok remainingUser := by
  have hstart : readStore sampleLibraries .absent "pw" = .ok .default := rfl
  have hfirst : upsertChange "prod" (.basic "elastic" "changeme") .default =
      .ok (some remainingUser) := rfl
  have hsecond : upsertChange "prod" (.apiKey "key") remainingUser = .ok (some bothParts) := rfl
  have hthird : removeChange (.ok ()) "prod" (some (.apiKey "key")) bothParts =
      .ok (some remainingUser) := rfl
  obtain ⟨user, huser, hreadUser⟩ :=
    modifyStore_written sampleSealing_lawful sampleAttempt _ hstart hfirst (by decide +kernel)
  obtain ⟨both, hboth, hreadBoth⟩ :=
    modifyStore_written sampleSealing_lawful sampleAttempt _ hreadUser hsecond (by decide +kernel)
  obtain ⟨rest, hrest, hreadRest⟩ :=
    modifyStore_written sampleSealing_lawful sampleAttempt _ hreadBoth hthird (by decide +kernel)
  have huserRun : Request.run sampleLibraries
      ⟨.upsertSecretAuth "prod" (.basic "elastic" "changeme"), "pw", sampleAttempt⟩ .absent =
        (.ok (), user) := huser
  have hbothRun : Request.run sampleLibraries
      ⟨.upsertSecretAuth "prod" (.apiKey "key"), "pw", sampleAttempt⟩ user = (.ok (), both) := hboth
  have hrestRun : Request.run sampleLibraries
      ⟨.removeSecret (.ok ()) "prod" (some (.apiKey "key")), "pw", sampleAttempt⟩ both =
        (.ok (), rest) := hrest
  constructor
  · rw [partialRemoval, successes_cons huserRun hstart, successes_cons hbothRun hreadUser,
      successes_cons hrestRun hreadBoth, successes]
  · rw [partialRemoval, runAll_cons huserRun, runAll_cons hbothRun, runAll_cons hrestRun]
    exact hreadRest

theorem readStore_partialRemoval :
    readStore sampleLibraries (runAll sampleLibraries .absent partialRemoval) "pw" =
      .ok remainingUser := partialRemoval_succeeds.2

theorem listSecretNames_partialRemoval :
    listSecretNames sampleLibraries (runAll sampleLibraries .absent partialRemoval) "pw" =
      .ok ["prod"] := by
  rw [listSecretNames, readStore_partialRemoval]
  rfl

/-- The last success on the name is a removal, and the name is listed. -/
theorem removed_name_listed :
    (lastSuccess "prod" (successes sampleLibraries .absent partialRemoval)).map
        (fun success => success.1.isRemoval) = some true ∧
      listSecretNames sampleLibraries (runAll sampleLibraries .absent partialRemoval) "pw" =
        .ok ["prod"] := by
  constructor
  · rw [partialRemoval_succeeds.1]
    rfl
  · exact listSecretNames_partialRemoval

theorem remaining_user_listed :
    NoEmptyEntry remainingUser ∧
      listedAfter "prod" .default (successes sampleLibraries .absent partialRemoval) = true := by
  obtain ⟨start, ⟨password, hstart⟩, hempty, hlisted⟩ :=
    (secrets_follow_last_success sampleSealing_lawful .absent unambiguous_absent
      partialRemoval).2 remainingUser ⟨"pw", readStore_partialRemoval⟩
  obtain rfl : KeystoreData.default = start := Except.ok.inj hstart
  constructor
  · apply hempty
    intro name entry hentry
    cases hentry
  · have hnames := (hlisted "pw" _ listSecretNames_partialRemoval).2 "prod"
    exact hnames.mp (List.mem_singleton_self _)

end Histories

end Esdiag.KeystoreInvariants
