import LCCFileService.FileNet.Cancellation
import LCCFileService.FileNet.Moves

/-!
# Callbacks that call back

Whoever is told a note may call the service, and is told of what comes of it while the
first notification is still under way.  The trace of a state is kept in order as long as
every such call, like every event of the run, is permitted: what it delivers is what is owed
for the attempt, and what it registers is not lost.
-/

namespace LCCFileService

open LCFileNetService LCFileNetOperation Delivery

/-- Observers and callbacks that answer a note with events, in turn told of what these do.  No
note is answered at depth `0`. -/
def callers (md5 : Bytes → String) (calls : Note → State → List Event) : Nat → Env
  | 0 => quiet md5
  | n + 1 => {
      md5
      react := fun note s => Run.final (step (callers md5 calls n)) s (calls note s) }

/-- The task ids whose finish is being delivered. -/
def delivering (s : State) : List String :=
  (Ledger.empty.replay s.trace).elim [] Ledger.delivering

/-- No finish callback of the task id is being delivered. -/
def Free (taskId : String) (s : State) : Prop :=
  taskId ∈ delivering s → registered .finish taskId s = []

instance (taskId : String) (s : State) : Decidable (Free taskId s) :=
  inferInstanceAs (Decidable (_ → _))

/-- `lc_startTask:queue:` finds that the task has finished. -/
def FinishedBefore (taskId : String) (c : Core) : Prop :=
  (∃ oldTask ∈ c.cache.lookup taskId, (c.tasks.cell oldTask).status = .finish) ∨
    (c.cache.lookup taskId = none ∧ ∃ row ∈ c.db.get taskId, row.status = .finish)

instance (taskId : String) (c : Core) : Decidable (FinishedBefore taskId c) :=
  inferInstanceAs (Decidable (_ ∨ _))

/-- No array of callbacks is changed while it is enumerated. -/
def NoClash (task : TaskRef) (taskId : String) (s : State) : Prop :=
  ∀ kind, ∀ a ∈ (s.callbackCache kind).lookup taskId, a.ref ∈ s.enumerated →
    a.add ((s.tasks.cell task).callback kind) = a

instance (task : TaskRef) (taskId : String) (s : State) : Decidable (NoClash task taskId s) :=
  inferInstanceAs (Decidable (∀ _ : NoteKind, _))

/-- Starting the task, with its task id, is permitted: it changes no array that is enumerated.
A task that does not pass `p_checkTask:` delivers no callback but its own.  A task that does
registers no finish callback, and delivers none, while the finish of its task id is being
delivered. -/
def PermitsStart (task : TaskRef) (taskId : String) (s : State) : Prop :=
  NoClash task taskId s ∧
    if pCheckTask task s.toCore then
      (taskId ∈ delivering s → (s.tasks.cell task).finishCallback = none) ∧
        (FinishedBefore taskId s.toCore → Free taskId s)
    else registered .finish taskId s = []

instance (task : TaskRef) (taskId : String) (s : State) :
    Decidable (PermitsStart task taskId s) :=
  inferInstanceAs (Decidable (_ ∧ _))

/-- The event is permitted: a task that is started is, a cancellation that returns delivers what
is owed, and so does the end of an operation, which is the one stored for its task id unless
no finish callback is registered. -/
def Permitted (s : State) : Event → Prop
  | .startTask task =>
      task < s.tasks.next →
        ∃ taskId ∈ (s.tasks.cell task).taskId, PermitsStart task taskId s
  | .resumTask taskId =>
      ∀ task ∈ s.cache.lookup taskId, (s.tasks.cell task).status ≠ .finish →
        PermitsStart task taskId s
  | .finish r error =>
      r < s.calls.next → (s.calls.cell r).method.Ends error →
        ∀ taskId ∈ s.taskIdOf (s.calls.cell r).op, Free taskId s ∧
          (s.taskOperationDic.lookup taskId = some (s.calls.cell r).op ∨
            registered .finish taskId s = [])
  | e => ∀ taskId m, CancelReturns taskId m s e → Free taskId s

/-- Finish callbacks are delivered exactly once: no exception was raised, nothing is being
delivered, the trace is in order and owes what is registered, and so every registration has
been invoked once unless the callback is still registered. -/
structure Delivered (s : State) : Prop where
  notRaised : s.raised = false
  inOrder : ∃ L, Ledger.empty.replay s.trace = some L ∧ L.due = [] ∧
    ∀ taskId, registered .finish taskId s = L.owed taskId
  exactlyOnce : ∀ taskId b, Ledger.empty.registrations taskId b s.trace
    = Ledger.invocations taskId b s.trace + (registered .finish taskId s).count b

/-! ### Saving callbacks -/

/-- The arrays in the callback caches and those enumerated have been made, and no exception was
raised. -/
structure ArraysMade (s : State) : Prop where
  cached : ∀ kind k a, (s.callbackCache kind).lookup k = some a → a.ref < s.arrays
  enumerated : ∀ ref ∈ s.enumerated, ref < s.arrays
  notRaised : s.raised = false

/-- The callbacks after one has been added, if there is one. -/
def withCallback (cb : Option Block) (bs : List Block) : List Block :=
  cb.elim bs (fun b => addNew b bs)

theorem blocks_add (cb : Option Block) (a : CallbackArray) :
  (a.add cb).blocks = withCallback cb a.blocks
  := by
  cases cb with
  | none => rfl
  | some b => rfl

theorem ref_add (cb : Option Block) (a : CallbackArray) :
  (a.add cb).ref = a.ref
  := by
  cases cb with
  | none => rfl
  | some b => rfl

theorem lookup_saveCallback (kind : NoteKind) (cb : Option Block) (k : String) (s : State)
    (kind' : NoteKind) (k' : String) :
  ((saveCallback kind cb k s).callbackCache kind').lookup k'
    = if kind' = kind ∧ k' = k then
        some ((((s.callbackCache kind).lookup k).getD ⟨s.arrays, []⟩).add cb)
      else (s.callbackCache kind').lookup k'
  := by
  rw [saveCallback]
  simp only [Function.update_apply]
  by_cases hkind : kind' = kind
  · subst hkind
    simp only [if_true, true_and]
    apply Dictionary.lookup_insert
  · rw [if_neg hkind, if_neg (fun h => hkind h.1)]

theorem registered_saveCallback (kind : NoteKind) (cb : Option Block) (k : String) (s : State)
    (kind' : NoteKind) (k' : String) :
  registered kind' k' (saveCallback kind cb k s)
    = if kind' = kind ∧ k' = k then withCallback cb (registered kind k s)
      else registered kind' k' s
  := by
  rw [registered, lookup_saveCallback]
  split
  · rw [Option.elim_some, blocks_add]
    cases hlookup : (s.callbackCache kind).lookup k with
    | none => rw [registered, hlookup]; rfl
    | some a => rw [registered, hlookup]; rfl
  · rfl

/-- The finish callbacks after `p_saveCallback:`. -/
theorem registered_pSaveCallback (task : TaskRef) (k : String) (s : State) (k' : String) :
  registered .finish k' (pSaveCallback task k s)
    = if k' = k then
        withCallback (s.tasks.cell task).finishCallback (registered .finish k s)
      else registered .finish k' s
  := by
  rw [pSaveCallback]
  simp [registered_saveCallback]

/-- Saving a callback makes one array at most, and raises no exception if that changes no
enumerated array. -/
theorem ArraysMade.saveCallback {s : State} (h : ArraysMade s) {kind : NoteKind}
    {cb : Option Block} {k : String}
    (hclash : ∀ a ∈ (s.callbackCache kind).lookup k, a.ref ∈ s.enumerated → a.add cb = a) :
  ArraysMade (saveCallback kind cb k s)
  := by
  have href : (((s.callbackCache kind).lookup k).getD ⟨s.arrays, []⟩).ref < s.arrays + 1 := by
    cases hlookup : (s.callbackCache kind).lookup k with
    | none => apply Nat.lt_succ_self
    | some a => apply Nat.lt_succ_of_lt (h.cached kind k a hlookup)
  constructor
  · intro kind' k' a ha
    rw [lookup_saveCallback] at ha
    split at ha
    · obtain rfl := Option.some.inj ha
      rw [ref_add]
      apply href
    · apply Nat.lt_succ_of_lt (h.cached kind' k' a ha)
  · intro ref href
    apply Nat.lt_succ_of_lt (h.enumerated ref href)
  · rw [LCFileNetService.saveCallback]
    simp only [h.notRaised, Bool.false_or, Bool.and_eq_false_iff, decide_eq_false_iff_not, ne_eq,
      not_not]
    cases hlookup : (s.callbackCache kind).lookup k with
    | none =>
        left
        intro hmem
        apply absurd (h.enumerated _ hmem) (Nat.lt_irrefl _)
    | some a =>
        rw [Option.getD_some]
        by_cases hmem : a.ref ∈ s.enumerated
        · right
          apply hclash a hlookup hmem
        · left
          apply hmem

/-- Saving the callbacks of a task raises no exception if that changes no enumerated array. -/
theorem ArraysMade.pSaveCallback {s : State} (h : ArraysMade s) {task : TaskRef} {k : String}
    (hclash : NoClash task k s) :
  ArraysMade (pSaveCallback task k s)
  := by
  rw [LCFileNetService.pSaveCallback]
  apply ((h.saveCallback (hclash .progress)).saveCallback _).saveCallback _
  · intro a ha
    rw [lookup_saveCallback, if_neg (by simp)] at ha
    apply hclash .status a ha
  · intro a ha
    rw [lookup_saveCallback, if_neg (by simp), lookup_saveCallback, if_neg (by simp)] at ha
    apply hclash .finish a ha

end LCCFileService
