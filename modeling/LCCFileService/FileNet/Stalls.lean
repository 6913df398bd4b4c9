import LCCFileService.FileNet.Changes
import LCCFileService.FileNet.Successes

/-!
# Operations that stall

An operation that was started is to wait for the handler or to be finished, with its finish
reported to its observer.  It does as long as its handler is there and the type of its task is
known when it starts, and its handler is still there when a resumption fails.  For otherwise
`main` calls nothing, and the operation executes for ever, or `p_startUpload` and
`p_startDownload` finish it without a report.
-/

namespace LCCFileService

open LCFileNetService LCFileNetOperation

/-! ### Outstanding calls and reports -/

/-- A call of a handler method with a finish block of the operation has not been answered. -/
def Outstanding (o : OpRef) (c : Core) : Prop :=
  ∃ r < c.calls.next, (c.calls.cell r).op = o ∧ (c.calls.cell r).method.transfers ∧
    (c.calls.cell r).answered = false

instance (o : OpRef) (c : Core) : Decidable (Outstanding o c) :=
  inferInstanceAs (Decidable (∃ r, r < c.calls.next ∧ _))

/-- The operation whose finish is reported to its observer with the event. -/
def reports (s : State) : Event → Option OpRef
  | .finish r error =>
      if r < s.calls.next ∧ (s.calls.cell r).method.Ends error then some (s.calls.cell r).op
      else none
  | _ => none

/-- The operations of the process whose finish was reported. -/
def record (s : State) : Event → List OpRef → List OpRef
  | .restart, _ => []
  | e, os => (reports s e).toList ++ os

/-- The steps, with the operations whose finish was reported on record. -/
def watch (E : Env) : State × List OpRef → Event → State × List OpRef :=
  Run.recording (step E) record

/-- What is reported is reported by `p_notifyFinishWithError:` of the operation, which then
finishes. -/
theorem step_of_reports {E : Env} {s : State} {e : Event} {o : OpRef} (h : reports s e = some o) :
  ∃ error s', step E s e
    = (LCFileNetOperation.pNotifyFinish E o error s').mapCore (pFinishOperatioin o)
  := by
  cases e with
  | finish r error =>
      rw [reports] at h
      split at h
      · next hguard =>
          obtain rfl := Option.some.inj h
          rw [step, if_pos hguard.1, finishBlock_ends hguard.2]
          exact ⟨error, _, rfl⟩
      · cases h
  | _ => cases h

/-- The operation, once started and neither paused nor cancelled, waits for the handler, or is
finished and its finish was reported. -/
def Proceeds (o : OpRef) (c : Core) (reported : List OpRef) : Prop :=
  (c.ops.cell o).started → (c.ops.cell o).cancelled = false →
    Outstanding o c ∨ (c.ops.cell o).finished ∧ o ∈ reported

/-- No operation stalls or ends silently, and one that executes waits for the handler. -/
structure NoneStalls (p : State × List OpRef) : Prop where
  proceeds : ∀ o < p.1.ops.next, Proceeds o p.1.toCore p.2
  executing : ∀ o < p.1.ops.next, (p.1.ops.cell o).executing → Outstanding o p.1.toCore

/-- An operation that starts has a handler and a task of known type.  One whose resumption fails
has a handler; if not, another of its calls is outstanding, or its finish was reported before. -/
def KeepsGoing (p : State × List OpRef) : Event → Prop
  | .opStart o =>
      o < p.1.ops.next ∧ (p.1.ops.cell o).started = false → (p.1.ops.cell o).cancelled = false →
        (p.1.handerOf o).isSome ∧ (p.1.tasks.cell (p.1.taskOf o)).type ≠ .unknown
  | .finish r error =>
      r < p.1.calls.next ∧ (p.1.calls.cell r).method.resumes ∧ error.isSome →
        (p.1.ops.cell (p.1.calls.cell r).op).cancelled = false →
          (p.1.handerOf (p.1.calls.cell r).op).isSome ∨
            Outstanding (p.1.calls.cell r).op (p.1.toCore.answer r) ∨ (p.1.calls.cell r).op ∈ p.2
  | _ => True

/-- A call of a transfer method is outstanding. -/
theorem outstanding_call {o : OpRef} {method : HanderMethod} (hmethod : method.transfers)
    (c : Core) :
  Outstanding o (c.call o method)
  := by
  have hcell : (c.call o method).calls.cell c.calls.next = { op := o, method } :=
    Heap.cell_alloc_next _ _
  refine ⟨c.calls.next, Nat.lt_succ_self _, ?_⟩
  rw [hcell]
  exact ⟨rfl, hmethod, rfl⟩

/-! ### What is kept of operations and calls -/

/-- An operation that executes was started, and is neither cancelled nor finished; one that is
finished was started or cancelled. -/
structure LCFileNetOperation.Consistent (op : LCFileNetOperation) : Prop where
  executing : op.executing → op.started ∧ op.cancelled = false ∧ op.finished = false
  finished : op.finished → op.started ∨ op.cancelled

/-- An operation that had finished stays as it is when it is cancelled. -/
theorem LCFileNetOperation.Consistent.finish {op : LCFileNetOperation} (h : op.Consistent)
    (hcancelled : (op.cancelled || !op.finished) = false) :
  { op with cancelled := op.cancelled || !op.finished, executing := false, finished := true } = op
  := by
  obtain ⟨hcancelled', hfinished⟩ := Bool.or_eq_false_iff.mp hcancelled
  rw [Bool.not_eq_false'] at hfinished
  have hexecuting : op.executing = false := by
    by_contra hexecuting
    have hunfinished := (h.executing (by simpa using hexecuting)).2.2
    rw [hfinished] at hunfinished
    cases hunfinished
  cases op
  simp_all

/-- The operation was not started. -/
def LCFileNetOperation.Waiting (op : LCFileNetOperation) : Prop :=
  op.started = false ∧ op.executing = false

/-- From `c` to `c'` consistent operations without `P` stay as they are unless they are cancelled,
and so do their calls of transfer methods; operations are added that have not been started, and
transfers are begun by operations with `P` that have. -/
structure Operates (P : OpRef → Prop) (c c' : Core) : Prop where
  ops_le : c.ops.next ≤ c'.ops.next
  calls_le : c.calls.next ≤ c'.calls.next
  consistent : ∀ o < c.ops.next, (c.ops.cell o).Consistent → (c'.ops.cell o).Consistent
  started : ∀ o < c.ops.next, (c.ops.cell o).started → (c'.ops.cell o).started
  same : ∀ o < c.ops.next, ¬ P o → (c.ops.cell o).Consistent →
    (c'.ops.cell o).cancelled = false → c'.ops.cell o = c.ops.cell o
  waiting : ∀ o < c.ops.next, ¬ P o → (c.ops.cell o).Waiting → (c'.ops.cell o).Waiting
  added : ∀ o < c'.ops.next, c.ops.next ≤ o →
    (c'.ops.cell o).Waiting ∧ (c'.ops.cell o).Consistent
  op : ∀ r < c.calls.next, (c'.calls.cell r).op = (c.calls.cell r).op
  method : ∀ r < c.calls.next, (c'.calls.cell r).method = (c.calls.cell r).method
  answered : ∀ r < c.calls.next, (c.calls.cell r).method.transfers → ¬ P (c.calls.cell r).op →
    (c'.calls.cell r).answered = (c.calls.cell r).answered
  begun : ∀ r < c'.calls.next, c.calls.next ≤ r → (c'.calls.cell r).method.transfers →
    P (c'.calls.cell r).op ∧ (c'.calls.cell r).op < c.ops.next ∧
      (c'.ops.cell (c'.calls.cell r).op).started

namespace Operates

variable {P : OpRef → Prop} {c c' c'' : Core}

/-- Changes of neither operations nor calls. -/
theorem of_eq (hops : c'.ops = c.ops) (hcalls : c'.calls = c.calls) :
  Operates P c c'
  := by
  constructor
  · rw [hops]
  · rw [hcalls]
  · rw [hops]
    exact fun _ _ h => h
  · rw [hops]
    exact fun _ _ h => h
  · rw [hops]
    exact fun _ _ _ _ _ => rfl
  · rw [hops]
    exact fun _ _ _ h => h
  · rw [hops]
    intro o ho hle
    apply absurd ho (Nat.not_lt_of_le hle)
  · rw [hcalls]
    exact fun _ _ => rfl
  · rw [hcalls]
    exact fun _ _ => rfl
  · rw [hcalls]
    exact fun _ _ _ _ => rfl
  · rw [hcalls]
    intro r hr hle
    apply absurd hr (Nat.not_lt_of_le hle)

/-- Where the operations with `P` are there from the start. -/
theorem trans (h : Operates P c c') (h' : Operates P c' c'') (hP : ∀ o, P o → o < c.ops.next) :
  Operates P c c''
  := by
  have hadded : ∀ o, c.ops.next ≤ o → ¬ P o := fun o hle ho => Nat.not_lt_of_le hle (hP o ho)
  constructor
  · apply Nat.le_trans h.ops_le h'.ops_le
  · apply Nat.le_trans h.calls_le h'.calls_le
  · intro o ho hconsistent
    apply h'.consistent o (Nat.lt_of_lt_of_le ho h.ops_le) (h.consistent o ho hconsistent)
  · intro o ho hstarted
    apply h'.started o (Nat.lt_of_lt_of_le ho h.ops_le) (h.started o ho hstarted)
  · intro o ho hP hconsistent hcancelled
    have hsame := h'.same o (Nat.lt_of_lt_of_le ho h.ops_le) hP (h.consistent o ho hconsistent)
      hcancelled
    rw [hsame] at hcancelled ⊢
    apply h.same o ho hP hconsistent hcancelled
  · intro o ho hP hwaiting
    apply h'.waiting o (Nat.lt_of_lt_of_le ho h.ops_le) hP (h.waiting o ho hP hwaiting)
  · intro o ho hle
    by_cases hlt : o < c'.ops.next
    · obtain ⟨hwaiting, hconsistent⟩ := h.added o hlt hle
      exact ⟨h'.waiting o hlt (hadded o hle) hwaiting, h'.consistent o hlt hconsistent⟩
    · apply h'.added o ho (Nat.le_of_not_lt hlt)
  · intro r hr
    rw [h'.op r (Nat.lt_of_lt_of_le hr h.calls_le), h.op r hr]
  · intro r hr
    rw [h'.method r (Nat.lt_of_lt_of_le hr h.calls_le), h.method r hr]
  · intro r hr hmethod hP
    rw [h'.answered r (Nat.lt_of_lt_of_le hr h.calls_le), h.answered r hr hmethod hP]
    · rw [h.method r hr]
      apply hmethod
    · rw [h.op r hr]
      apply hP
  · intro r hr hle hmethod
    by_cases hlt : r < c'.calls.next
    · rw [h'.method r hlt] at hmethod
      rw [h'.op r hlt]
      obtain ⟨hP, hop, hstarted⟩ := h.begun r hlt hle hmethod
      exact ⟨hP, hop, h'.started _ (Nat.lt_of_lt_of_le hop h.ops_le) hstarted⟩
    · obtain ⟨hPop, -, hstarted⟩ := h'.begun r hr (Nat.le_of_not_lt hlt) hmethod
      exact ⟨hPop, hP _ hPop, hstarted⟩

/-- Setting flags of an operation with `P`, or of one that is cancelled if they change. -/
theorem setOp {o : OpRef} {f : LCFileNetOperation → LCFileNetOperation}
    (hf : P o ∨ ((c.ops.cell o).Consistent → (f (c.ops.cell o)).cancelled = false →
        f (c.ops.cell o) = c.ops.cell o) ∧
      ((c.ops.cell o).Waiting → (f (c.ops.cell o)).Waiting))
    (hconsistent : (c.ops.cell o).Consistent → (f (c.ops.cell o)).Consistent)
    (hstarted : (c.ops.cell o).started → (f (c.ops.cell o)).started) :
  Operates P c (c.setOp o f)
  := by
  have hcell : ∀ o', (c.setOp o f).ops.cell o'
      = if o' = o then f (c.ops.cell o) else c.ops.cell o' :=
    fun o' => Heap.cell_modify o f c.ops o'
  constructor
  · apply Nat.le_refl _
  · apply Nat.le_refl _
  · intro o' _ h
    rw [hcell]
    split
    · next heq =>
        rw [heq] at h
        apply hconsistent h
    · apply h
  · intro o' _ h
    rw [hcell]
    split
    · next heq =>
        rw [heq] at h
        apply hstarted h
    · apply h
  · intro o' _ hP hcell' hcancelled
    rw [hcell] at hcancelled ⊢
    split
    · next heq =>
        rw [if_pos heq] at hcancelled
        rw [heq] at hP hcell' ⊢
        obtain hPo | ⟨hsame, -⟩ := hf
        · apply absurd hPo hP
        · apply hsame hcell' hcancelled
    · rfl
  · intro o' _ hP hwaiting
    rw [hcell]
    split
    · next heq =>
        rw [heq] at hP hwaiting
        obtain hPo | ⟨-, hwait⟩ := hf
        · apply absurd hPo hP
        · apply hwait hwaiting
    · apply hwaiting
  · intro o' ho' hle
    apply absurd ho' (Nat.not_lt_of_le hle)
  · exact fun _ _ => rfl
  · exact fun _ _ => rfl
  · exact fun _ _ _ _ => rfl
  · intro r hr hle
    apply absurd hr (Nat.not_lt_of_le hle)

/-- A cancelled operation is finished, and no longer executes. -/
theorem pFinishOperatioin {o : OpRef}
    (ho : P o ∧ (c.ops.cell o).started ∨ (c.ops.cell o).cancelled) :
  Operates P c (LCFileNetOperation.pFinishOperatioin o c)
  := by
  apply setOp
  · obtain ⟨hP, -⟩ | hcancelled := ho
    · apply Or.inl hP
    · refine Or.inr ⟨?_, fun hwaiting => ⟨hwaiting.1, rfl⟩⟩
      intro _ hnot
      cases hnot.symm.trans hcancelled
  · intro _
    refine ⟨by rintro ⟨⟩, fun _ => ?_⟩
    obtain ⟨-, hstarted⟩ | hcancelled := ho
    · apply Or.inl hstarted
    · apply Or.inr hcancelled
  · exact id

theorem superCancel (o : OpRef) (c : Core) :
  Operates P c (LCFileNetOperation.superCancel o c)
  := by
  have hset : Operates P c (c.setOp o (fun op => { op with
      cancelled := op.cancelled || !op.finished, executing := false, finished := true })) := by
    apply setOp
    · right
      refine ⟨?_, fun hwaiting => ⟨hwaiting.1, rfl⟩⟩
      intro hconsistent hcancelled
      -- an operation that is not cancelled by this had finished
      apply hconsistent.finish
      apply hcancelled
    · intro hconsistent
      refine ⟨by rintro ⟨⟩, fun _ => ?_⟩
      cases hfinished : (c.ops.cell o).finished with
      | true =>
          obtain hstarted | hcancelled := hconsistent.finished hfinished
          · apply Or.inl hstarted
          · right
            simp [hcancelled]
      | false =>
          right
          rw [Bool.not_false]
          apply Bool.or_true
    · exact id
  rw [superCancel_eq]
  exact { hset with }

/-- Calling a handler method, a transfer method only by an operation with `P` that was started. -/
theorem call {o : OpRef} {method : HanderMethod}
    (ho : method.transfers → P o ∧ o < c.ops.next ∧ (c.ops.cell o).started) :
  Operates P c (c.call o method)
  := by
  have hcell : ∀ r < c.calls.next, (c.call o method).calls.cell r = c.calls.cell r := by
    intro r hr
    rw [Core.call, Heap.cell_alloc_of_lt _ hr]
  constructor
  · apply Nat.le_refl _
  · apply Nat.le_succ _
  · exact fun _ _ h => h
  · exact fun _ _ h => h
  · exact fun _ _ _ _ _ => rfl
  · exact fun _ _ _ h => h
  · intro o' ho' hle
    apply absurd ho' (Nat.not_lt_of_le hle)
  · intro r hr
    rw [hcell r hr]
  · intro r hr
    rw [hcell r hr]
  · intro r hr _ _
    rw [hcell r hr]
  · intro r hr hle hmethod
    obtain rfl : r = c.calls.next := Nat.le_antisymm (Nat.lt_succ_iff.mp hr) hle
    rw [Core.call, Heap.cell_alloc_next] at hmethod ⊢
    apply ho hmethod

theorem addOperation (task : TaskRef) (k : String) (c : Core) :
  Operates P c (LCFileNetService.addOperation task k c)
  := by
  have hcell : ∀ o < c.ops.next,
      (LCFileNetService.addOperation task k c).ops.cell o = c.ops.cell o :=
    fun o ho => Heap.cell_alloc_of_lt _ ho
  constructor
  · apply Nat.le_succ _
  · apply Nat.le_refl _
  · intro o ho h
    rw [hcell o ho]
    apply h
  · intro o ho h
    rw [hcell o ho]
    apply h
  · intro o ho _ _ _
    apply hcell o ho
  · intro o ho _ h
    rw [hcell o ho]
    apply h
  · intro o ho hle
    obtain rfl : o = c.ops.next := Nat.le_antisymm (Nat.lt_succ_iff.mp ho) hle
    rw [LCFileNetService.addOperation, Heap.cell_alloc_next]
    exact ⟨⟨rfl, rfl⟩, by rintro ⟨⟩, by rintro ⟨⟩⟩
  · exact fun _ _ => rfl
  · exact fun _ _ => rfl
  · exact fun _ _ _ _ => rfl
  · intro r hr hle
    apply absurd hr (Nat.not_lt_of_le hle)

/-- Answering a call of an operation with `P`, or one without a finish block. -/
theorem answer {r : CallRef} (hr : (c.calls.cell r).method.transfers → P (c.calls.cell r).op) :
  Operates P c (c.answer r)
  := by
  have hcell : ∀ r', (c.answer r).calls.cell r'
      = if r' = r then { c.calls.cell r with answered := true } else c.calls.cell r' := by
    intro r'
    rw [Core.answer, Heap.cell_modify]
  constructor
  · apply Nat.le_refl _
  · apply Nat.le_refl _
  · exact fun _ _ h => h
  · exact fun _ _ h => h
  · exact fun _ _ _ _ _ => rfl
  · exact fun _ _ _ h => h
  · intro o' ho' hle
    apply absurd ho' (Nat.not_lt_of_le hle)
  · intro r' _
    rw [hcell]
    split
    · next heq => rw [heq]
    · rfl
  · intro r' _
    rw [hcell]
    split
    · next heq => rw [heq]
    · rfl
  · intro r' _ hmethod hP
    rw [hcell]
    split
    · next heq =>
        rw [heq] at hmethod hP
        apply absurd (hr hmethod) hP
    · rfl
  · intro r' hr' hle
    apply absurd hr' (Nat.not_lt_of_le hle)

/-- A change by the service. -/
theorem change {F : String → Prop} (hchange : Change F c c') :
  Operates P c c'
  := by
  cases hchange with
  | superCancel o => apply superCancel o c
  | call o hmethod =>
      apply call
      intro htransfers
      rw [hmethod] at htransfers
      cases htransfers
  | addOperation r k => apply addOperation r k c
  | _ => exact of_eq rfl rfl

theorem changes {F : String → Prop} (hchanges : Changes F c c') :
  Operates (fun _ => False) c c'
  := by
  induction hchanges with
  | refl => apply of_eq rfl rfl
  | tail _ hchange ih => apply ih.trans (change hchange) (fun _ h => h.elim)

end Operates

/-! ### The two events of a transfer -/

section

variable {md5 : Bytes → String} {c : Core}

/-- `main` calls a transfer method exactly if there is a handler and the type of the task is
known; otherwise it at most finishes the operation. -/
theorem mainTransfer_cases (o : OpRef) (c : Core) :
  ((c.handerOf o).isSome ∧ (c.tasks.cell (c.taskOf o)).type ≠ .unknown) ∧
      (∃ method : HanderMethod, method.transfers ∧ mainTransfer o c = c.call o method) ∨
    ¬ ((c.handerOf o).isSome ∧ (c.tasks.cell (c.taskOf o)).type ≠ .unknown) ∧
      (mainTransfer o c = c ∨ mainTransfer o c = pFinishOperatioin o c)
  := by
  by_cases hhander : (c.handerOf o).isSome
  · cases htype : (c.tasks.cell (c.taskOf o)).type with
    | unknown =>
        right
        refine ⟨fun h => h.2 rfl, Or.inl ?_⟩
        simp only [mainTransfer, htype]
    | upload =>
        left
        refine ⟨⟨hhander, by simp⟩, ?_⟩
        simp only [mainTransfer, htype, pResumUpload, pStartUpload, hhander, if_true]
        split
        · exact ⟨.resumUpload, rfl, rfl⟩
        · exact ⟨.upload, rfl, rfl⟩
    | download =>
        left
        refine ⟨⟨hhander, by simp⟩, ?_⟩
        simp only [mainTransfer, htype, pResumDownLoad, pStartDownload, hhander, if_true]
        split
        · exact ⟨.resumDownload, rfl, rfl⟩
        · exact ⟨.download, rfl, rfl⟩
  · right
    refine ⟨fun h => hhander h.1, ?_⟩
    rw [mainTransfer]
    split
    · split
      · rw [pResumUpload, if_neg hhander]
        apply Or.inl rfl
      · rw [pStartUpload, if_neg hhander]
        apply Or.inr rfl
    · split
      · rw [pResumDownLoad, if_neg hhander]
        apply Or.inl rfl
      · rw [pStartDownload, if_neg hhander]
        apply Or.inr rfl
    · apply Or.inl rfl

/-- The finish block of a resumption that fails calls a transfer method exactly if there is a
handler; otherwise it finishes the operation. -/
theorem finishBlock_resumes {method : HanderMethod} {error : Option NSError}
    (hresumes : method.resumes) (herror : error.isSome) (E : Env) (o : OpRef) (s : State) :
  (s.handerOf o).isSome ∧ (∃ method' : HanderMethod, method'.transfers ∧
      finishBlock E method o error s = s.mapCore (·.call o method')) ∨
    (s.handerOf o).isSome = false ∧
      finishBlock E method o error s = s.mapCore (pFinishOperatioin o)
  := by
  have hstart : ∀ method' : HanderMethod, method'.transfers →
      finishBlock E method o error s = s.mapCore (fun c =>
        if (c.handerOf o).isSome then c.call o method' else pFinishOperatioin o c) →
      (s.handerOf o).isSome ∧ (∃ method' : HanderMethod, method'.transfers ∧
          finishBlock E method o error s = s.mapCore (·.call o method')) ∨
        (s.handerOf o).isSome = false ∧
          finishBlock E method o error s = s.mapCore (pFinishOperatioin o) := by
    intro method' htransfers heq
    rw [heq, State.mapCore]
    cases hhander : (s.handerOf o).isSome with
    | true =>
        left
        exact ⟨rfl, method', htransfers, rfl⟩
    | false =>
        right
        exact ⟨rfl, rfl⟩
  cases method with
  | resumUpload =>
      apply hstart .upload rfl
      rw [finishBlock, if_pos herror]
      rfl
  | resumDownload =>
      apply hstart .download rfl
      rw [finishBlock, if_pos herror]
      rfl
  | _ => cases hresumes

end

/-! ### Steps -/

/-- What holds of operations, of calls, and of the operations whose finish was reported, in every
run. -/
structure Watched (c : Core) (reported : List OpRef) : Prop where
  consistent : ∀ o < c.ops.next, (c.ops.cell o).Consistent
  called : ∀ r < c.calls.next, (c.calls.cell r).method.transfers →
    (c.calls.cell r).op < c.ops.next ∧ (c.ops.cell (c.calls.cell r).op).started
  reported : ∀ o ∈ reported, o < c.ops.next ∧ (c.ops.cell o).started

/-- The operation that starts, or whose call is answered. -/
def Involves (s : State) : Event → OpRef → Prop
  | .opStart o, o' => o < s.ops.next ∧ o' = o
  | .finish r _, o' =>
      r < s.calls.next ∧ (s.calls.cell r).method.transfers ∧ o' = (s.calls.cell r).op
  | _, _ => False

section

variable {P : OpRef → Prop} {c c' : Core} {os os' : List OpRef}

theorem Watched.operates (h : Watched c os) (hoperates : Operates P c c')
    (hos : ∀ o ∈ os', o ∈ os ∨ o < c.ops.next ∧ (c.ops.cell o).started) :
  Watched c' os'
  := by
  have hkeeps : ∀ o, o < c.ops.next ∧ (c.ops.cell o).started →
      o < c'.ops.next ∧ (c'.ops.cell o).started := by
    rintro o ⟨ho, hstarted⟩
    exact ⟨Nat.lt_of_lt_of_le ho hoperates.ops_le, hoperates.started o ho hstarted⟩
  constructor
  · intro o ho
    by_cases hlt : o < c.ops.next
    · apply hoperates.consistent o hlt (h.consistent o hlt)
    · apply (hoperates.added o ho (Nat.le_of_not_lt hlt)).2
  · intro r hr hmethod
    by_cases hlt : r < c.calls.next
    · rw [hoperates.method r hlt] at hmethod
      rw [hoperates.op r hlt]
      apply hkeeps _ (h.called r hlt hmethod)
    · obtain ⟨-, hop, hstarted⟩ := hoperates.begun r hr (Nat.le_of_not_lt hlt) hmethod
      exact ⟨Nat.lt_of_lt_of_le hop hoperates.ops_le, hstarted⟩
  · intro o ho
    obtain ho | ho := hos o ho
    · apply hkeeps o (h.reported o ho)
    · apply hkeeps o ho

/-- Outstanding calls of operations without `P` stay outstanding. -/
theorem Outstanding.operates (hoperates : Operates P c c') {o : OpRef} (hP : ¬ P o)
    (h : Outstanding o c) :
  Outstanding o c'
  := by
  obtain ⟨r, hr, rfl, hmethod, hanswered⟩ := h
  refine ⟨r, Nat.lt_of_lt_of_le hr hoperates.calls_le, hoperates.op r hr, ?_, ?_⟩
  · rw [hoperates.method r hr]
    apply hmethod
  · rw [hoperates.answered r hr hmethod hP]
    apply hanswered

/-- Operations without `P` go on proceeding. -/
theorem Proceeds.operates (hoperates : Operates P c c') (hos : os ⊆ os')
    (hconsistent : ∀ o < c.ops.next, (c.ops.cell o).Consistent)
    (h : ∀ o < c.ops.next, Proceeds o c os) {o : OpRef} (ho : o < c'.ops.next) (hP : ¬ P o) :
  Proceeds o c' os'
  := by
  intro hstarted hcancelled
  by_cases hlt : o < c.ops.next
  · have hsame := hoperates.same o hlt hP (hconsistent o hlt) hcancelled
    rw [hsame] at hstarted hcancelled ⊢
    obtain houtstanding | ⟨hfinished, hreported⟩ := h o hlt hstarted hcancelled
    · apply Or.inl (houtstanding.operates hoperates hP)
    · apply Or.inr ⟨hfinished, hos hreported⟩
  · obtain ⟨⟨hwaiting, -⟩, -⟩ := hoperates.added o ho (Nat.le_of_not_lt hlt)
    rw [hwaiting] at hstarted
    cases hstarted

end

/-! ### Starting an operation -/

section

variable {md5 : Bytes → String} {s : State} {o : OpRef} {os : List OpRef}

/-- The core in which `main` of an operation runs. -/
def running (o : OpRef) (c : Core) : Core :=
  c.setOp o (fun op => { op with started := true, executing := true })

/-- What an operation that starts does: it finishes if it is cancelled, and else runs `main`. -/
theorem step_opStart (hguard : o < s.ops.next ∧ (s.ops.cell o).started = false) :
  (step (quiet md5) s (.opStart o)).toCore =
    if (s.ops.cell o).cancelled then
      s.toCore.setOp o (fun op => { op with started := true, finished := true })
    else (LCFileNetOperation.main (quiet md5) o (s.mapCore (running o))).toCore
  := by
  have hcell : ((s.mapCore (·.setOp o (fun op => { op with started := true }))).ops.cell
      o).cancelled = (s.ops.cell o).cancelled := by
    rw [State.toCore_mapCore, Core.setOp, Heap.cell_modify_self]
  have hmodify := fun g => Heap.modify_modify o
    (fun op : LCFileNetOperation => { op with started := true }) g s.ops
  rw [step, if_pos hguard, LCFileNetOperation.start, hcell]
  split
  · exact congrArg (fun ops => { s.toCore with ops }) (hmodify _)
  · have hrunning : (s.mapCore (·.setOp o (fun op => { op with started := true }))).mapCore
        (·.setOp o (fun op => { op with executing := true })) = s.mapCore (running o) :=
      congrArg (fun ops => { s with ops }) (hmodify _)
    rw [hrunning]

/-- `main` does to operations and calls what it does before its last line. -/
theorem main_ops_calls (o : OpRef) (s : State) :
  (LCFileNetOperation.main (quiet md5) o s).ops = (mainTransfer o s.toCore).ops ∧
    (LCFileNetOperation.main (quiet md5) o s).calls = (mainTransfer o s.toCore).calls
  := by
  rw [toCore_main]
  split
  · exact ⟨rfl, rfl⟩
  · exact ⟨rfl, rfl⟩

theorem Operates.opStart (h : Watched s.toCore os)
    (hguard : o < s.ops.next ∧ (s.ops.cell o).started = false) :
  Operates (Involves s (.opStart o)) s.toCore (step (quiet md5) s (.opStart o)).toCore
  := by
  obtain ⟨ho, hstarted⟩ := hguard
  have hinvolves : Involves s (.opStart o) o := ⟨ho, rfl⟩
  have hexecuting : (s.ops.cell o).executing = false := by
    by_contra hexecuting
    have hstarted' := ((h.consistent o ho).executing (by simpa using hexecuting)).1
    rw [hstarted] at hstarted'
    cases hstarted'
  rw [step_opStart ⟨ho, hstarted⟩]
  split
  · next hcancelled =>
      apply setOp (Or.inl hinvolves)
      · intro _
        refine ⟨?_, fun _ => Or.inl rfl⟩
        intro hexecuting'
        rw [hexecuting] at hexecuting'
        cases hexecuting'
      · exact fun _ => rfl
  · next hcancelled =>
      have hrunning : Operates (Involves s (.opStart o)) s.toCore (running o s.toCore) := by
        apply setOp (Or.inl hinvolves)
        · intro hconsistent
          refine ⟨fun _ => ⟨rfl, by simpa using hcancelled, ?_⟩, fun _ => Or.inl rfl⟩
          by_contra hfinished
          obtain hstarted' | hcancelled' := hconsistent.finished (by simpa using hfinished)
          · rw [hstarted] at hstarted'
            cases hstarted'
          · apply hcancelled hcancelled'
        · exact fun _ => rfl
      have hstarted' : ((running o s.toCore).ops.cell o).started := by
        rw [running, Core.setOp, Heap.cell_modify_self]
      have hlt : ∀ o', Involves s (.opStart o) o' → o' < s.ops.next := by
        rintro o' ⟨ho', rfl⟩
        apply ho'
      have htransfer : Operates (Involves s (.opStart o)) (running o s.toCore)
          (mainTransfer o (running o s.toCore)) := by
        obtain ⟨-, method, -, heq⟩ | ⟨-, heq | heq⟩ := mainTransfer_cases o (running o s.toCore)
        · rw [heq]
          exact call (fun _ => ⟨hinvolves, ho, hstarted'⟩)
        · rw [heq]
          apply of_eq rfl rfl
        · rw [heq]
          apply pFinishOperatioin (Or.inl ⟨hinvolves, hstarted'⟩)
      obtain ⟨hops, hcalls⟩ := @main_ops_calls md5 o (s.mapCore (running o))
      apply (hrunning.trans htransfer hlt).trans (of_eq hops hcalls) hlt

/-- An operation that starts proceeds exactly if it has a handler and a task of known type. -/
theorem proceeds_opStart_iff (h : Watched s.toCore os)
    (hguard : o < s.ops.next ∧ (s.ops.cell o).started = false) :
  Proceeds o (step (quiet md5) s (.opStart o)).toCore os ↔
    ((s.ops.cell o).cancelled = false →
      (s.handerOf o).isSome ∧ (s.tasks.cell (s.taskOf o)).type ≠ .unknown)
  := by
  rw [step_opStart hguard]
  split
  · next hcancelled =>
      refine iff_of_true ?_ ?_
      · intro _ hnot
        rw [Core.setOp, Heap.cell_modify_self, hcancelled] at hnot
        cases hnot
      · intro hnot
        rw [hcancelled] at hnot
        cases hnot
  · next hcancelled =>
      obtain ⟨hops, hcalls⟩ := @main_ops_calls md5 o (s.mapCore (running o))
      have hproceeds : Proceeds o
            (LCFileNetOperation.main (quiet md5) o (s.mapCore (running o))).toCore os ↔
          Proceeds o (mainTransfer o (running o s.toCore)) os := by
        rw [Proceeds, Proceeds, Outstanding, Outstanding, hops, hcalls]
        rfl
      have hunreported : o ∉ os := by
        intro hreported
        have hstarted := (h.reported o hreported).2
        rw [hguard.2] at hstarted
        cases hstarted
      have hidle : ∀ c : Core, c.calls = s.calls → ¬ Outstanding o c := by
        rintro c hcalls ⟨r, hr, hop, hmethod, -⟩
        rw [hcalls] at hr hop hmethod
        have hstarted := (h.called r hr hmethod).2
        rw [hop, hguard.2] at hstarted
        cases hstarted
      have hflags : ((running o s.toCore).ops.cell o).started ∧
          ((running o s.toCore).ops.cell o).cancelled = false := by
        rw [running, Core.setOp, Heap.cell_modify_self]
        exact ⟨rfl, by simpa using hcancelled⟩
      have hhander : (running o s.toCore).handerOf o = s.handerOf o := Core.handerOf_setOp rfl o
      have htask : (running o s.toCore).taskOf o = s.taskOf o := Core.taskOf_setOp rfl o
      have hcases := mainTransfer_cases o (running o s.toCore)
      rw [hhander, htask] at hcases
      rw [hproceeds]
      obtain ⟨hserved, method, hmethod, heq⟩ | ⟨hnot, heq⟩ := hcases
      · refine iff_of_true ?_ (fun _ => hserved)
        rw [heq]
        exact fun _ _ => Or.inl (outstanding_call hmethod _)
      · refine iff_of_false ?_ (fun hserved => hnot (hserved (by simpa using hcancelled)))
        have hstalls : ∀ c : Core, c.calls = s.calls → (c.ops.cell o).started →
            (c.ops.cell o).cancelled = false → ¬ Proceeds o c os := by
          intro c hcalls hstarted hcancelled hproceeds
          obtain houtstanding | ⟨-, hreported⟩ := hproceeds hstarted hcancelled
          · apply hidle c hcalls houtstanding
          · apply hunreported hreported
        obtain heq | heq := heq
        · rw [heq]
          exact hstalls _ rfl hflags.1 hflags.2
        · rw [heq]
          apply hstalls
          · rfl
          · rw [LCFileNetOperation.pFinishOperatioin, Core.setOp, Heap.cell_modify_self]
            apply hflags.1
          · rw [LCFileNetOperation.pFinishOperatioin, Core.setOp, Heap.cell_modify_self]
            apply hflags.2

end

/-! ### Answering a call -/

section

variable {md5 : Bytes → String} {s : State} {os : List OpRef}

/-- What the finish block of a call does: it ends its operation, it restarts the transfer of a
resumption, or it does nothing. -/
theorem finishBlock_cases (method : HanderMethod) (error : Option NSError) :
  method.Ends error ∨ method.resumes ∧ error.isSome ∨ method.transfers = false
  := by
  cases method with
  | upload => apply Or.inl ⟨rfl, by rintro ⟨⟨⟩, -⟩⟩
  | download => apply Or.inl ⟨rfl, by rintro ⟨⟨⟩, -⟩⟩
  | resumUpload =>
      cases error with
      | none => apply Or.inl ⟨rfl, by rintro ⟨-, ⟨⟩⟩⟩
      | some error => apply Or.inr (Or.inl ⟨rfl, rfl⟩)
  | resumDownload =>
      cases error with
      | none => apply Or.inl ⟨rfl, by rintro ⟨-, ⟨⟩⟩⟩
      | some error => apply Or.inr (Or.inl ⟨rfl, rfl⟩)
  | cancel => apply Or.inr (Or.inr rfl)
  | pause => apply Or.inr (Or.inr rfl)

theorem transfers_of_resumes {method : HanderMethod} (h : method.resumes) :
  method.transfers
  := by
  cases method with
  | resumUpload => rfl
  | resumDownload => rfl
  | _ => cases h

/-- The end of an operation finishes it. -/
theorem ended_ops_calls (o : OpRef) (error : Option NSError) (s : State) :
  (ended (quiet md5) o error s).ops = (pFinishOperatioin o s.toCore).ops ∧
    (ended (quiet md5) o error s).calls = s.calls
  := by
  rw [toCore_ended_outcome]
  exact ⟨rfl, rfl⟩

theorem Operates.finish (h : Watched s.toCore os) {r : CallRef} (hr : r < s.calls.next)
    (error : Option NSError) :
  Operates (Involves s (.finish r error)) s.toCore (step (quiet md5) s (.finish r error)).toCore
  := by
  have hinvolves : (s.calls.cell r).method.transfers →
      Involves s (.finish r error) (s.calls.cell r).op := fun hmethod => ⟨hr, hmethod, rfl⟩
  have hlt : ∀ o, Involves s (.finish r error) o → o < s.ops.next := by
    rintro o ⟨-, hmethod, rfl⟩
    apply (h.called r hr hmethod).1
  have hanswer : Operates (Involves s (.finish r error)) s.toCore (s.toCore.answer r) :=
    answer hinvolves
  rw [step, if_pos hr]
  apply hanswer.trans _ hlt
  obtain hends | ⟨hresumes, herror⟩ | hmethod := finishBlock_cases (s.calls.cell r).method error
  · rw [finishBlock_ends hends]
    obtain ⟨hops, hcalls⟩ := @ended_ops_calls md5 (s.calls.cell r).op error (s.mapCore (·.answer r))
    have hfinish : Operates (Involves s (.finish r error)) (s.toCore.answer r)
        (LCFileNetOperation.pFinishOperatioin (s.calls.cell r).op (s.toCore.answer r)) :=
      pFinishOperatioin (Or.inl ⟨hinvolves hends.1, (h.called r hr hends.1).2⟩)
    apply hfinish.trans (of_eq hops hcalls) hlt
  · have hmethod := transfers_of_resumes hresumes
    obtain ⟨hop, hstarted⟩ := h.called r hr hmethod
    obtain ⟨-, method, -, heq⟩ | ⟨-, heq⟩ := finishBlock_resumes hresumes herror (quiet md5)
      (s.calls.cell r).op (s.mapCore (·.answer r))
    · rw [heq]
      exact call (fun _ => ⟨hinvolves hmethod, hop, hstarted⟩)
    · rw [heq]
      exact pFinishOperatioin (Or.inl ⟨hinvolves hmethod, hstarted⟩)
  · have hnothing : finishBlock (quiet md5) (s.calls.cell r).method (s.calls.cell r).op error
        (s.mapCore (·.answer r)) = s.mapCore (·.answer r) := by
      cases hcall : (s.calls.cell r).method with
      | cancel => rfl
      | pause => rfl
      | _ =>
          rw [hcall] at hmethod
          cases hmethod
    rw [hnothing]
    apply of_eq rfl rfl

/-- An operation whose call is answered proceeds exactly if its handler is there where a resumption
has failed, or another of its calls is outstanding, or its finish was reported before. -/
theorem proceeds_finish_iff (h : Watched s.toCore os) {r : CallRef} {error : Option NSError}
    (hr : r < s.calls.next) (hmethod : (s.calls.cell r).method.transfers) :
  Proceeds (s.calls.cell r).op (step (quiet md5) s (.finish r error)).toCore
      ((reports s (.finish r error)).toList ++ os) ↔
    ((s.calls.cell r).method.resumes ∧ error.isSome →
      (s.ops.cell (s.calls.cell r).op).cancelled = false →
        (s.handerOf (s.calls.cell r).op).isSome ∨
          Outstanding (s.calls.cell r).op (s.toCore.answer r) ∨ (s.calls.cell r).op ∈ os)
  := by
  obtain ⟨hop, hstarted⟩ := h.called r hr hmethod
  rw [step, if_pos hr]
  obtain hends | ⟨hresumes, herror⟩ | hnot := finishBlock_cases (s.calls.cell r).method error
  · refine iff_of_true ?_ (fun hresumes => absurd hresumes hends.2)
    obtain ⟨hops, hcalls⟩ := @ended_ops_calls md5 (s.calls.cell r).op error (s.mapCore (·.answer r))
    rw [finishBlock_ends hends, reports, if_pos ⟨hr, hends⟩]
    rintro - -
    right
    refine ⟨?_, List.mem_cons_self⟩
    rw [hops, LCFileNetOperation.pFinishOperatioin, Core.setOp, Heap.cell_modify_self]
  · have hends : ¬ (s.calls.cell r).method.Ends error := fun hends => hends.2 ⟨hresumes, herror⟩
    rw [reports, if_neg (fun hguard => hends hguard.2), Option.toList_none, List.nil_append]
    obtain ⟨hhander, method, hmethod', heq⟩ | ⟨hhander, heq⟩ := finishBlock_resumes hresumes herror
      (quiet md5) (s.calls.cell r).op (s.mapCore (·.answer r))
    · refine iff_of_true ?_ (fun _ _ => Or.inl hhander)
      rw [heq]
      exact fun _ _ => Or.inl (outstanding_call hmethod' _)
    · have hflags : ((s.toCore.answer r).ops.modify (s.calls.cell r).op
          (fun op => { op with executing := false, finished := true })).cell (s.calls.cell r).op
            = { s.ops.cell (s.calls.cell r).op with executing := false, finished := true } :=
        Heap.cell_modify_self _ _ _
      have hnone : (s.handerOf (s.calls.cell r).op).isSome = false := hhander
      rw [heq, Proceeds, State.toCore_mapCore, LCFileNetOperation.pFinishOperatioin, Core.setOp,
        State.toCore_mapCore, hflags, hnone]
      simp only [hstarted, hresumes, herror, Bool.false_eq_true, false_or, true_and, and_self,
        forall_const]
      apply Iff.rfl
  · rw [hmethod] at hnot
    cases hnot

end

/-! ### Runs -/

section

variable {md5 : Bytes → String} {s : State} {os : List OpRef}

theorem Operates.step (h : Watched s.toCore os) {e : Event} (he : e ≠ .restart) :
  Operates (Involves s e) s.toCore (LCCFileService.step (quiet md5) s e).toCore
  := by
  cases e with
  | set r t =>
      rw [LCCFileService.step]
      split
      · exact of_eq rfl rfl
      · apply of_eq rfl rfl
  | updatetask key filePath => exact of_eq rfl rfl
  | opStart o =>
      by_cases hguard : o < s.ops.next ∧ (s.ops.cell o).started = false
      · apply opStart h hguard
      · rw [LCCFileService.step, if_neg hguard]
        apply of_eq rfl rfl
  | progress r =>
      rw [LCCFileService.step]
      split
      · rw [toCore_progressBlock]
        split
        · next hcancelled =>
            have hsizes : Operates (Involves s (.progress r)) s.toCore
                (s.toCore.recordSizes (s.taskOf (s.calls.cell r).op)) := of_eq rfl rfl
            apply hsizes.trans (pFinishOperatioin (Or.inr hcancelled)) (fun _ h => h.elim)
        · exact of_eq rfl rfl
      · apply of_eq rfl rfl
  | finish r error =>
      by_cases hr : r < s.calls.next
      · apply finish h hr error
      · rw [LCCFileService.step, if_neg hr]
        apply of_eq rfl rfl
  | restart => apply absurd rfl he
  | _ => apply changes (Changes.step s rfl)

theorem record_of_ne {e : Event} (he : e ≠ .restart) :
  record s e os = (reports s e).toList ++ os
  := by
  cases e with
  | restart => apply absurd rfl he
  | _ => rfl

theorem Watched.initial (db : TaskTable) (disk : Disk String Bytes) :
  Watched (State.initial db disk).toCore []
  := by
  constructor
  · rintro o ⟨⟩
  · rintro r ⟨⟩
  · rintro o ⟨⟩

/-- Whatever was reported, operations and calls are watched. -/
theorem Watched.unreported {c : Core} (h : Watched c os) :
  Watched c []
  := ⟨h.consistent, h.called, by rintro o ⟨⟩⟩

theorem Watched.step (h : Watched s.toCore os) (e : Event) :
  Watched (LCCFileService.step (quiet md5) s e).toCore (record s e os)
  := by
  by_cases he : e = .restart
  · subst he
    apply Watched.initial
  · apply h.operates (Operates.step h he)
    intro o ho
    rw [record_of_ne he, List.mem_append, Option.mem_toList] at ho
    obtain hreports | ho := ho
    · right
      cases e with
      | finish r error =>
          rw [reports] at hreports
          split at hreports
          · next hguard =>
              obtain rfl := Option.some.inj hreports
              apply h.called r hguard.1 hguard.2.1
          · cases hreports
      | _ => cases hreports
    · apply Or.inl ho

/-- An operation that executes has not ended, so that it waits for the handler if it proceeds. -/
theorem noneStalls_iff (h : Watched s.toCore os) :
  NoneStalls (s, os) ↔ ∀ o < s.ops.next, Proceeds o s.toCore os
  := by
  constructor
  · apply NoneStalls.proceeds
  · intro hproceeds
    refine ⟨hproceeds, ?_⟩
    intro o ho hexecuting
    obtain ⟨hstarted, hcancelled, hfinished⟩ := (h.consistent o ho).executing hexecuting
    obtain houtstanding | ⟨hfinished', -⟩ := hproceeds o ho hstarted hcancelled
    · apply houtstanding
    · rw [hfinished] at hfinished'
      cases hfinished'

/-- A step leaves all operations proceeding exactly if it keeps the one it involves going. -/
theorem proceeds_step_iff (h : Watched s.toCore os)
    (hproceeds : ∀ o < s.ops.next, Proceeds o s.toCore os) (e : Event) :
  (∀ o < (step (quiet md5) s e).ops.next,
      Proceeds o (step (quiet md5) s e).toCore (record s e os)) ↔
    KeepsGoing (s, os) e
  := by
  by_cases he : e = .restart
  · subst he
    apply iff_of_true (by rintro o ⟨⟩) trivial
  · have hoperates := @Operates.step md5 _ _ h _ he
    have hothers : ∀ o < (step (quiet md5) s e).ops.next, ¬ Involves s e o →
        Proceeds o (step (quiet md5) s e).toCore (record s e os) := by
      intro o ho hnot
      apply Proceeds.operates hoperates _ h.consistent hproceeds ho hnot
      rw [record_of_ne he]
      apply List.subset_append_right _ _
    have hone : ∀ o < s.ops.next, (∀ o', Involves s e o' ↔ o' = o) →
        ((∀ o < (step (quiet md5) s e).ops.next,
            Proceeds o (step (quiet md5) s e).toCore (record s e os)) ↔
          Proceeds o (step (quiet md5) s e).toCore (record s e os)) := by
      intro o ho hinvolves
      constructor
      · intro hall
        apply hall o (Nat.lt_of_lt_of_le ho hoperates.ops_le)
      · intro ho' o' hlt
        by_cases heq : o' = o
        · rw [heq]
          apply ho'
        · apply hothers o' hlt (fun hinvolved => heq ((hinvolves o').mp hinvolved))
    cases e with
    | opStart o =>
        by_cases hguard : o < s.ops.next ∧ (s.ops.cell o).started = false
        · have hinvolves : ∀ o', Involves s (.opStart o) o' ↔ o' = o :=
            fun o' => and_iff_right hguard.1
          rw [hone o hguard.1 hinvolves]
          apply (proceeds_opStart_iff h hguard).trans
          exact ⟨fun hserved _ => hserved, fun hserved => hserved hguard⟩
        · rw [step, if_neg hguard]
          apply iff_of_true hproceeds (fun hguard' => absurd hguard' hguard)
    | finish r error =>
        by_cases hguard : r < s.calls.next ∧ (s.calls.cell r).method.transfers
        · obtain ⟨hr, hmethod⟩ := hguard
          have hinvolves : ∀ o', Involves s (.finish r error) o' ↔ o' = (s.calls.cell r).op := by
            intro o'
            rw [Involves, and_iff_right hr, and_iff_right hmethod]
          rw [hone _ (h.called r hr hmethod).1 hinvolves]
          apply (proceeds_finish_iff h hr hmethod).trans
          exact ⟨fun hkeeps hguard => hkeeps hguard.2, fun hkeeps hguard => hkeeps ⟨hr, hguard⟩⟩
        · refine iff_of_true ?_ ?_
          · intro o ho
            apply hothers o ho (fun hinvolved => hguard ⟨hinvolved.1, hinvolved.2.1⟩)
          · rintro ⟨hr, hresumes, -⟩
            apply absurd ⟨hr, transfers_of_resumes hresumes⟩ hguard
    | _ => apply iff_of_true (fun o ho => hothers o ho id) trivial

end

/-- In a run no operation stalls or ends silently exactly if every operation that starts has a
handler and a task of known type, and none whose resumption fails has lost its handler, unless
another of its calls is outstanding or its finish was reported before. -/
theorem throughout_noneStalls_iff (md5 : Bytes → String) (db : TaskTable)
    (disk : Disk String Bytes) (es : List Event) :
  Run.Throughout (watch (quiet md5)) NoneStalls (State.initial db disk, []) es ↔
    Run.Along (watch (quiet md5)) KeepsGoing (State.initial db disk, []) es
  := by
  have hinitial : Watched (State.initial db disk).toCore [] := Watched.initial db disk
  have hwatched : Run.Throughout (watch (quiet md5)) (fun p => Watched p.1.toCore p.2)
      (State.initial db disk, []) es := by
    apply Run.throughout_of_invariant (I := fun p : State × List OpRef => Watched p.1.toCore p.2)
    · intro p e h
      apply h.step e
    · apply hinitial
  rw [← Run.throughout_and_iff hwatched]
  apply Run.throughout_iff_along
  · rintro ⟨s, os⟩ e ⟨h, hnone⟩
    have h' : Watched (step (quiet md5) s e).toCore (record s e os) := h.step e
    rw [← @proceeds_step_iff md5 _ _ h ((noneStalls_iff h).mp hnone) e, ← noneStalls_iff h']
    apply and_iff_right h'
  · refine ⟨hinitial, (noneStalls_iff hinitial).mpr ?_⟩
    rintro o ⟨⟩

/-- A download that is paused and resumed, and whose handler is gone when it starts again. -/
def resumedWithoutHander : List Event :=
  [.create { taskId := "k", type := .download }, .addHander 0, .startTask 0, .opStart 0,
    .returns 0, .pauseTask "k", .returns 0, .resumTask "k", .deallocHander 0, .opStart 1]

/-- The resumed operation executes for ever, without any call of the handler. -/
theorem not_throughout_noneStalls_resumedWithoutHander :
  ¬ Run.Throughout (watch (quiet (fun _ => ""))) NoneStalls
      (State.initial ∅ (fun _ => none), []) resumedWithoutHander
  := by
  intro h
  have hidle : ¬ Outstanding 1 (Run.final (watch (quiet (fun _ => "")))
      (State.initial ∅ (fun _ => none), []) resumedWithoutHander).1.toCore := by
    decide +kernel
  apply hidle (h.final.executing 1 (by decide +kernel) (by decide +kernel))

end LCCFileService
