import LiveComponent.Store
import Mathlib.Data.Set.Function

namespace LiveComponent

/-!
# Stores in files

A store in files answers as a store in memory does in which the names of files stand for the keys.  So it
answers for the keys themselves exactly if no two of them have the same file, as keys of plain
characters do.
-/

/-! ## Calls of a store -/

/-- A call of a store with what it is about. -/
inductive StoreRequest where
  | get (key : Text)
  | set (key document : Text)
  | remove (key : Text)
deriving DecidableEq, Repr

/-- The answer to a call: the document under a key if this is asked for, and nothing after a change. -/
abbrev StoreAnswer := Except StoreFailure (Option Text)

namespace StoreRequest

/-- The key that a call is about. -/
def key : StoreRequest → Text
  | get key | set key _ | remove key => key

/-- The call with another name for its key. -/
def renamed (name : Text → Text) : StoreRequest → StoreRequest
  | get key => .get (name key)
  | set key document => .set (name key) document
  | remove key => .remove (name key)

/-- Why a call does not comply with a limit for documents. -/
def excess? (limit : Nat) : StoreRequest → Option StoreFailure
  | set key document =>
    let size := Text.byteSize document
    if limit < size then some (.tooLarge key size limit) else none
  | _ => none

end StoreRequest

namespace Shelf

/-- Carry out a call. -/
def perform (shelf : Shelf) : StoreRequest → Shelf × StoreAnswer
  | .get key => (shelf, shelf.get key)
  | .set key document =>
    let (shelf, result) := shelf.set key document
    (shelf, result.map fun _ => none)
  | .remove key =>
    let (shelf, result) := shelf.remove key
    (shelf, result.map fun _ => none)

/-- The answers to calls that come one after the other. -/
def answers (shelf : Shelf) : List StoreRequest → List StoreAnswer
  | [] => []
  | request :: rest =>
    let (shelf, answer) := shelf.perform request
    answer :: shelf.answers rest

/-- Carry out a call under another name for its key.  A document over the limit is refused, and
nothing changes. -/
def performWithin
    (limit : Nat)
    (name : Text → Text)
    (shelf : Shelf)
    (request : StoreRequest) :
    Shelf × StoreAnswer :=
  match request.excess? limit with
  | some failure => (shelf, .error failure)
  | none => shelf.perform (request.renamed name)

/-- The answers to calls that come one after the other, within a limit and under other names. -/
def answersWithin
    (limit : Nat)
    (name : Text → Text)
    (shelf : Shelf) :
    List StoreRequest → List StoreAnswer
  | [] => []
  | request :: rest =>
    let (shelf, answer) := shelf.performWithin limit name request
    answer :: shelf.answersWithin limit name rest

end Shelf

/-! ## Names of files -/

namespace FileStore

/-- Keys of plain characters have different files. -/
theorem injOn_fileName_of_plain
    {keys : Set Text}
    (plain : ∀ key ∈ keys, key.all isPlain = true) :
    Set.InjOn fileName keys := by
  have itself (key : Text) (member : key ∈ keys) :
      fileName key = key ++ ".json".toList := by
    have unchanged : (key.map fun c => if isPlain c then c else '_') = key := by
      refine List.map_congr_left (fun c among => ?_) |>.trans (List.map_id' key)
      exact if_pos (List.all_eq_true.mp (plain key member) c among)
    rw [fileName, unchanged]
  intro first firstMember second secondMember same
  rw [itself first firstMember, itself second secondMember] at same
  exact List.append_cancel_right same

/-! ## One call in a directory -/

section

variable
  {directory : Directory}
  {key other : Text}
  {found : Option Text}

/-- What was written under a name is found for all keys with this name, and nothing else has changed. -/
theorem get_put
    (reads : get directory key = .ok found)
    (short : isTooLong (fileName key) = false)
    (name document : Text) :
    get (directory.put name (.document document)) key =
      if name = fileName key then .ok (some document) else .ok found := by
  by_cases same : name = fileName key
  · simp [get, Directory.put, short, Table.get?_put, same]
  · rw [if_neg same, ← reads]
    cases directory with
    | missing =>
        simp [get, Directory.put, Directory.files, short, Table.get?_put, same]
    | blocked =>
        cases reads
    | present files =>
        simp [get, Directory.put, Directory.files, short, Table.get?_put, same]

/-- A document within the limit is written in place of one that can be read. -/
theorem set_eq
    (limit : Nat)
    (reads : get directory key = .ok found)
    (short : isTooLong (fileName key) = false)
    (document : Text) :
    set limit directory key document =
      if limit < Text.byteSize document then
        (directory, .error (.tooLarge key (Text.byteSize document) limit))
      else
        (directory.put (fileName key) (.document document), .ok ()) := by
  have unblocked : directory ≠ .blocked := by
    rintro rfl
    cases reads
  have noFolder : directory.files.get? (fileName key) ≠ some .folder := by
    intro folder
    cases directory with
    | missing =>
        cases folder
    | blocked =>
        cases folder
    | present files =>
        have folder : files.get? (fileName key) = some .folder := folder
        simp [get, short, folder] at reads
  simp [set, unblocked, short, noFolder]

/-- A document that can be read is removed for all keys with the name of its file, and nothing else
has changed. -/
theorem remove_eq
    (reads : get directory key = .ok found)
    (short : isTooLong (fileName key) = false) :
    ∃ next,
      remove directory key = (next, .ok ()) ∧
        ∀ other kept,
          get directory other = .ok kept →
          isTooLong (fileName other) = false →
            get next other = if fileName key = fileName other then .ok none else .ok kept := by
  cases directory with
  | missing =>
      refine ⟨.missing, rfl, fun other kept readsOther _ => ?_⟩
      obtain rfl := Except.ok.inj readsOther
      exact (ite_self _).symm
  | blocked =>
      cases reads
  | present files =>
      have noFolder : files.get? (fileName key) ≠ some .folder := by
        intro folder
        simp [get, short, folder] at reads
      refine ⟨.present (files.erase (fileName key)), by simp [remove, short, noFolder],
        fun other kept readsOther shortOther => ?_⟩
      rw [← readsOther]
      by_cases same : fileName key = fileName other
      · simp [get, shortOther, Table.get?_erase, same]
      · simp [get, shortOther, Table.get?_erase, same]

end

end FileStore

/-! ## Calls one after the other -/

namespace Shelf

section

variable
  {keys : Set Text}
  {name : Text → Text}

/-- The directory has for each key what the table has under its name. -/
def Holds (keys : Set Text) (name : Text → Text) (directory : Directory) (documents : Table Text) : Prop :=
  ∀ key ∈ keys, FileStore.get directory key = .ok (documents.get? (name key))

/-- A store in files and one in memory answer a call alike, and have the same documents afterwards. -/
theorem perform_files
    (limit : Nat)
    {directory : Directory}
    {documents : Table Text}
    {request : StoreRequest}
    (short : ∀ key ∈ keys, FileStore.isTooLong (FileStore.fileName key) = false)
    (faithful :
      ∀ key ∈ keys, ∀ other ∈ keys,
        name key = name other ↔ FileStore.fileName key = FileStore.fileName other)
    (holds : Holds keys name directory documents)
    (member : request.key ∈ keys) :
    ∃ next after answer,
      (files limit directory).perform request = (files limit next, answer) ∧
        (memory documents).performWithin limit name request = (memory after, answer) ∧
        Holds keys name next after := by
  cases request with
  | get key =>
      refine ⟨directory, documents, .ok (documents.get? (name key)), ?_, rfl, holds⟩
      exact congrArg (Prod.mk _) (holds key member)
  | set key document =>
      have written := FileStore.set_eq limit (holds key member) (short key member) document
      by_cases excess : limit < Text.byteSize document
      · rw [if_pos excess] at written
        refine ⟨directory, documents, .error (.tooLarge key (Text.byteSize document) limit), ?_, ?_, holds⟩
        · simp [perform, set, written, Except.map]
        · simp [performWithin, StoreRequest.excess?, excess]
      · rw [if_neg excess] at written
        refine ⟨directory.put (FileStore.fileName key) (.document document),
          documents.put (name key) document, .ok none, ?_, ?_, fun other among => ?_⟩
        · simp [perform, set, written, Except.map]
        · simp [performWithin, StoreRequest.excess?, excess, StoreRequest.renamed, perform, set, Except.map]
        · rw [FileStore.get_put (holds other among) (short other among), Table.get?_put]
          simp only [faithful key member other among]
          split <;> rfl
  | remove key =>
      obtain ⟨next, removed, finds⟩ := FileStore.remove_eq (holds key member) (short key member)
      refine ⟨next, documents.erase (name key), .ok none, ?_, ?_, fun other among => ?_⟩
      · simp [perform, remove, removed, Except.map]
      · simp [performWithin, StoreRequest.excess?, StoreRequest.renamed, perform, remove, Except.map]
      · rw [finds other _ (holds other among) (short other among), Table.get?_erase]
        simp only [faithful key member other among]
        split <;> rfl

/-- A store in files and one in memory with the same documents answer all calls alike. -/
theorem answers_files
    (limit : Nat)
    {directory : Directory}
    {documents : Table Text}
    (short : ∀ key ∈ keys, FileStore.isTooLong (FileStore.fileName key) = false)
    (faithful :
      ∀ key ∈ keys, ∀ other ∈ keys,
        name key = name other ↔ FileStore.fileName key = FileStore.fileName other)
    (holds : Holds keys name directory documents)
    (requests : List StoreRequest)
    (members : ∀ request ∈ requests, request.key ∈ keys) :
    (files limit directory).answers requests = (memory documents).answersWithin limit name requests := by
  induction requests generalizing directory documents with
  | nil =>
      rfl
  | cons request rest inductionHypothesis =>
      rw [List.forall_mem_cons] at members
      obtain ⟨next, after, answer, performed, expected, holdsAfter⟩ :=
        perform_files limit short faithful holds members.1
      rw [answers, answersWithin, performed, expected]
      exact congrArg (List.cons answer) (inductionHypothesis holdsAfter members.2)

/-- If two keys have the same file, a call about one of them changes what is found under the other one. -/
theorem exists_answers_ne
    (limit : Nat)
    {directory : Directory}
    {documents : Table Text}
    {key other : Text}
    (short : FileStore.isTooLong (FileStore.fileName key) = false)
    (finds : FileStore.get directory key = .ok (documents.get? key))
    (findsOther : FileStore.get directory other = .ok (documents.get? other))
    (different : key ≠ other)
    (shared : FileStore.fileName key = FileStore.fileName other) :
    ∃ change : StoreRequest,
      change.key = key ∧
        (files limit directory).answers [change, .get other] ≠
          (memory documents).answersWithin limit id [change, .get other] := by
  have shortOther : FileStore.isTooLong (FileStore.fileName other) = false := shared ▸ short
  cases present : documents.get? other with
  | some document =>
      obtain ⟨next, removed, gone⟩ := FileStore.remove_eq finds short
      have got := gone other _ findsOther shortOther
      rw [if_pos shared] at got
      refine ⟨.remove key, rfl, fun same => ?_⟩
      simp [answers, answersWithin, perform, performWithin, StoreRequest.excess?, StoreRequest.renamed, get,
        remove, removed, got, Table.get?_erase, different, present, Except.map] at same
  | none =>
      have written := FileStore.set_eq limit finds short []
      have got := FileStore.get_put findsOther shortOther (FileStore.fileName key) []
      have fits : ¬limit < Text.byteSize [] := Nat.not_lt_zero limit
      rw [if_neg fits] at written
      rw [if_pos shared] at got
      refine ⟨.set key [], rfl, fun same => ?_⟩
      simp [answers, answersWithin, perform, performWithin, StoreRequest.excess?, StoreRequest.renamed, get,
        set, written, got, fits, Table.get?_put, different, present, Except.map] at same

end

/-- A store in files answers like one in memory that has the documents under the names of their files and
refuses those over the limit.  It answers for the keys themselves exactly if different keys have different
files, and so it does if all characters of the keys are plain. -/
theorem file_store_answers_by_names
    (limit : Nat)
    (directory : Directory)
    (keys : Set Text)
    (short : ∀ key ∈ keys, FileStore.isTooLong (FileStore.fileName key) = false) :
    (∀ documents, Holds keys FileStore.fileName directory documents →
      ∀ requests : List StoreRequest, (∀ request ∈ requests, request.key ∈ keys) →
        (files limit directory).answers requests =
          (memory documents).answersWithin limit FileStore.fileName requests) ∧
      (∀ documents, Holds keys id directory documents →
        ((∀ requests : List StoreRequest, (∀ request ∈ requests, request.key ∈ keys) →
            (files limit directory).answers requests = (memory documents).answersWithin limit id requests) ↔
          Set.InjOn FileStore.fileName keys)) ∧
      ((∀ key ∈ keys, key.all FileStore.isPlain = true) → Set.InjOn FileStore.fileName keys) := by
  refine ⟨fun documents holds => answers_files limit short (fun _ _ _ _ => Iff.rfl) holds,
    fun documents holds => ⟨fun alike key member other otherMember shared => ?_, fun injective => ?_⟩,
    FileStore.injOn_fileName_of_plain⟩
  · by_contra different
    obtain ⟨change, about, differs⟩ :=
      exists_answers_ne limit (short key member) (holds key member) (holds other otherMember)
        different shared
    refine differs (alike _ ?_)
    rw [List.forall_mem_cons, List.forall_mem_singleton]
    exact ⟨about ▸ member, otherMember⟩
  · refine answers_files limit short (fun key member other otherMember => ?_) holds
    exact ⟨congrArg FileStore.fileName, injective member otherMember⟩

/-- A store over a new directory answers for the keys of caches like one in memory. -/
theorem file_store_answers_by_names_of_plain :
    ∃ keys : Set Text,
      (∀ key ∈ keys, FileStore.isTooLong (FileStore.fileName key) = false) ∧
        Holds keys id .missing [] ∧ (∀ key ∈ keys, key.all FileStore.isPlain = true) ∧
        (files defaultDocumentLimit .missing).answers
            [.set "component-cache".toList "x".toList, .remove "other".toList, .get "component-cache".toList] =
          [.ok none, .ok none, .ok (some "x".toList)] := by
  let names := ["component-cache".toList, "other".toList]
  let keys : Set Text := {key | key ∈ names}
  have short : ∀ key ∈ names, FileStore.isTooLong (FileStore.fileName key) = false := by
    decide
  have plain : ∀ key ∈ names, key.all FileStore.isPlain = true := by
    decide
  have holds : Holds keys id .missing [] := fun _ _ => rfl
  obtain ⟨-, byKeys, injective⟩ := file_store_answers_by_names defaultDocumentLimit .missing keys short
  refine ⟨keys, short, holds, plain, ?_⟩
  rw [(byKeys [] holds).mpr (injective plain) _ (show ∀ request ∈ _, StoreRequest.key request ∈ names by decide)]
  decide

/-- Two keys with one file: what is written under one of them is found under the other one. -/
theorem file_store_mixes_keys :
    ¬∀ (limit : Nat) (requests : List StoreRequest),
      (∀ request ∈ requests, FileStore.isTooLong (FileStore.fileName request.key) = false) →
        (files limit .missing).answers requests = (memory []).answersWithin limit id requests := by
  intro alike
  have same :=
    alike defaultDocumentLimit [.set "a/b".toList "x".toList, .get "a:b".toList] (by decide)
  revert same
  decide

end Shelf

end LiveComponent
