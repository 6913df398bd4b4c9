import LCCFileService.FileNet.Queues

/-!
# Transfers in flight

Where the handler answers every call at most once, at most as many transfers of a queue are in
flight as the queue may run operations: an operation has at most one call that has not been
answered, and while it has one it does not finish, unless it is cancelled.
-/

namespace LCCFileService

open LCFileNetService LCFileNetOperation

/-! ### Pending calls -/

/-- The handler answers every call at most once. -/
def AnswersOnce (p : State × Queues) (q : QueuedEvent) : Prop :=
  match q.event with
  | .finish r _ => r < p.1.calls.next → (p.1.calls.cell r).answered = false
  | _ => True

/-- The call of a transfer method has not been answered. -/
def Pending (c : Core) (r : CallRef) : Prop :=
  r < c.calls.next ∧ (c.calls.cell r).method.transfers ∧ (c.calls.cell r).answered = false

instance (c : Core) (r : CallRef) : Decidable (Pending c r) := inferInstanceAs (Decidable (_ ∧ _))

/-- The transfers of the queue that are in flight: the pending calls of its operations that have
not been cancelled. -/
def Queues.inFlight (ref : QueueRef) (p : State × Queues) : List CallRef :=
  (List.range p.1.calls.next).filter (fun r => Pending p.1.toCore r ∧
    (p.1.calls.cell r).op ∈ (p.2 ref).added ∧
      (p.1.ops.cell (p.1.calls.cell r).op).cancelled = false)

/-- An operation has at most one pending call, and while it has one it is not finished, unless it
was cancelled. -/
structure OneCall (c : Core) : Prop where
  unique : ∀ r r', Pending c r → Pending c r' → (c.calls.cell r).op = (c.calls.cell r').op → r = r'
  unfinished : ∀ r, Pending c r → (c.ops.cell (c.calls.cell r).op).cancelled = false →
    (c.ops.cell (c.calls.cell r).op).finished = false

namespace OneCall

variable {md5 : Bytes → String} {s : State}

/-- A call pending after the event was pending before, or was begun by an operation involved. -/
theorem pending_before (h : Watched s.toCore []) {e : Event} (he : e ≠ .restart) {r : CallRef}
    (hpending : Pending (LCCFileService.step (quiet md5) s e).toCore r)
    (hnot : ¬ Involves s e ((LCCFileService.step (quiet md5) s e).calls.cell r).op) :
  Pending s.toCore r ∧
    ((LCCFileService.step (quiet md5) s e).calls.cell r).op = (s.calls.cell r).op
  := by
  have hoperates := @Operates.step md5 _ _ h _ he
  obtain ⟨hr, hmethod, hanswered⟩ := hpending
  have hlt : r < s.calls.next := by
    by_contra hge
    apply hnot (hoperates.begun r hr (Nat.le_of_not_lt hge) hmethod).1
  have hop := hoperates.op r hlt
  rw [hoperates.method r hlt] at hmethod
  rw [hop] at hnot
  rw [hoperates.answered r hlt hmethod hnot] at hanswered
  exact ⟨⟨hlt, hmethod, hanswered⟩, hop⟩

/-- What is to hold of the calls of the operations that are not involved in an event holds. -/
theorem of_involved (h : OneCall s.toCore) (hwatched : Watched s.toCore []) {e : Event}
    (he : e ≠ .restart)
    (hinvolved : ∀ o, Involves s e o →
      (∀ r r', Pending (LCCFileService.step (quiet md5) s e).toCore r →
        Pending (LCCFileService.step (quiet md5) s e).toCore r' →
          ((LCCFileService.step (quiet md5) s e).calls.cell r).op = o →
            ((LCCFileService.step (quiet md5) s e).calls.cell r').op = o → r = r') ∧
      ∀ r, Pending (LCCFileService.step (quiet md5) s e).toCore r →
        ((LCCFileService.step (quiet md5) s e).calls.cell r).op = o →
          ((LCCFileService.step (quiet md5) s e).ops.cell o).cancelled = false →
            ((LCCFileService.step (quiet md5) s e).ops.cell o).finished = false) :
  OneCall (LCCFileService.step (quiet md5) s e).toCore
  := by
  have hoperates := @Operates.step md5 _ _ hwatched _ he
  constructor
  · intro r r' hr hr' heq
    by_cases hinvolves : Involves s e ((LCCFileService.step (quiet md5) s e).calls.cell r).op
    · apply (hinvolved _ hinvolves).1 r r' hr hr' rfl heq.symm
    · obtain ⟨hold, hop⟩ := pending_before hwatched he hr hinvolves
      rw [heq] at hinvolves
      obtain ⟨hold', hop'⟩ := pending_before hwatched he hr' hinvolves
      apply h.unique r r' hold hold'
      rw [← hop, heq, hop']
  · intro r hr hcancelled
    by_cases hinvolves : Involves s e ((LCCFileService.step (quiet md5) s e).calls.cell r).op
    · apply (hinvolved _ hinvolves).2 r hr rfl hcancelled
    · obtain ⟨hold, hop⟩ := pending_before hwatched he hr hinvolves
      have hlt := (hwatched.called r hold.1 hold.2.1).1
      rw [hop] at hcancelled hinvolves ⊢
      have hsame := hoperates.same _ hlt hinvolves (hwatched.consistent _ hlt) hcancelled
      rw [hsame] at hcancelled ⊢
      apply h.unfinished r hold hcancelled

/-- Of an operation without pending calls that calls the handler, only the new call is pending. -/
theorem eq_of_pending_call {c c' : Core} {o : OpRef} {method : HanderMethod}
    (hnone : ∀ r, Pending c r → (c.calls.cell r).op ≠ o)
    (hcalls : c'.calls = (c.call o method).calls) {r : CallRef} (hr : Pending c' r)
    (hop : (c'.calls.cell r).op = o) :
  r = c.calls.next
  := by
  rw [Pending, hcalls] at hr
  rw [hcalls] at hop
  obtain ⟨hlt, hmethod, hanswered⟩ := hr
  by_contra hne
  have hold : r < c.calls.next := Nat.lt_of_le_of_ne (Nat.lt_succ_iff.mp hlt) hne
  rw [Core.call, Heap.cell_alloc_of_lt _ hold] at hmethod hanswered hop
  apply hnone r ⟨hold, hmethod, hanswered⟩ hop

theorem opStart (h : OneCall s.toCore) (hwatched : Watched s.toCore [])
    (hcancelled : CancelledFinished s.toCore) (o : OpRef) :
  OneCall (LCCFileService.step (quiet md5) s (.opStart o)).toCore
  := by
  by_cases hguard : o < s.ops.next ∧ (s.ops.cell o).started = false
  · have hnone : ∀ r, Pending s.toCore r → (s.calls.cell r).op ≠ o := by
      rintro r ⟨hr, hmethod, -⟩ rfl
      have hstarted := (hwatched.called r hr hmethod).2
      rw [hguard.2] at hstarted
      cases hstarted
    have hsame : (LCCFileService.step (quiet md5) s (.opStart o)).calls = s.calls →
        ∀ r, Pending (LCCFileService.step (quiet md5) s (.opStart o)).toCore r →
          ((LCCFileService.step (quiet md5) s (.opStart o)).calls.cell r).op ≠ o := by
      intro hcalls r hr
      rw [Pending, hcalls] at hr
      rw [hcalls]
      apply hnone r hr
    apply h.of_involved hwatched (by rintro ⟨⟩)
    rintro o' ⟨-, rfl⟩
    by_cases hbegun : Begun s o'
    · obtain ⟨hops, hcalls⟩ := @opStart_ops_calls md5 s o' hbegun hcancelled
      obtain ⟨-, method, -, heq⟩ | ⟨-, heq⟩ := mainTransfer_cases o' (running o' s.toCore)
      · rw [heq] at hops hcalls
        have hnew := fun r => @eq_of_pending_call s.toCore _ o' method hnone hcalls r
        constructor
        · intro r r' hr hr' hop hop'
          rw [hnew r hr hop, hnew r' hr' hop']
        · intro r _ _ _
          rw [hops, Core.call, running, Core.setOp, Heap.cell_modify_self]
          apply hbegun.2.2
      · have hcalls' : (LCCFileService.step (quiet md5) s (.opStart o')).calls = s.calls := by
          rw [hcalls]
          obtain heq | heq := heq
          · rw [heq]
            rfl
          · rw [heq]
            rfl
        exact ⟨fun r _ hr _ hop => absurd hop (hsame hcalls' r hr),
          fun r hr hop => absurd hop (hsame hcalls' r hr)⟩
    · -- The operation was cancelled before it started.
      have hfinished : (s.ops.cell o').finished := by
        by_contra hfinished
        apply hbegun ⟨hguard.1, hguard.2, by simpa using hfinished⟩
      have hcancelled' : (s.ops.cell o').cancelled := by
        apply ((hwatched.consistent o' hguard.1).finished hfinished).resolve_left
        rw [hguard.2]
        simp
      have hcalls : (LCCFileService.step (quiet md5) s (.opStart o')).calls = s.calls := by
        rw [step_opStart hguard, if_pos hcancelled']
        rfl
      exact ⟨fun r _ hr _ hop => absurd hop (hsame hcalls r hr),
        fun r hr hop => absurd hop (hsame hcalls r hr)⟩
  · rw [LCCFileService.step, if_neg hguard]
    apply h

theorem finish (h : OneCall s.toCore) (hwatched : Watched s.toCore []) {r : CallRef}
    (hr : r < s.calls.next) (hanswered : (s.calls.cell r).answered = false)
    (error : Option NSError) :
  OneCall (LCCFileService.step (quiet md5) s (.finish r error)).toCore
  := by
  apply h.of_involved hwatched (by rintro ⟨⟩)
  rintro o ⟨-, hmethod, rfl⟩
  have hpending : Pending s.toCore r := ⟨hr, hmethod, hanswered⟩
  have hnone : ∀ r', Pending (s.toCore.answer r) r' →
      ((s.toCore.answer r).calls.cell r').op ≠ (s.calls.cell r).op := by
    intro r' hpending' hop
    have hcell := Heap.cell_modify r (fun call : HanderCall => { call with answered := true })
      s.calls r'
    by_cases heq : r' = r
    · rw [if_pos heq] at hcell
      rw [Pending, Core.answer, hcell] at hpending'
      cases hpending'.2.2
    · rw [if_neg heq] at hcell
      rw [Pending, Core.answer, hcell] at hpending'
      rw [Core.answer, hcell] at hop
      apply heq (h.unique r' r hpending' hpending hop)
  rw [LCCFileService.step, if_pos hr]
  obtain ⟨-, -, hcalls⟩ | ⟨-, method, -, hops, hcalls⟩ | ⟨hnot, -⟩ := @finishBlock_ops_calls md5
    (s.calls.cell r).method error (s.calls.cell r).op (s.mapCore (·.answer r))
  · have hnone' : ∀ r', Pending (finishBlock (quiet md5) (s.calls.cell r).method (s.calls.cell r).op
        error (s.mapCore (·.answer r))).toCore r' →
          ((finishBlock (quiet md5) (s.calls.cell r).method (s.calls.cell r).op error
            (s.mapCore (·.answer r))).calls.cell r').op ≠ (s.calls.cell r).op := by
      intro r' hr'
      rw [Pending, hcalls] at hr'
      rw [hcalls]
      apply hnone r' hr'
    exact ⟨fun r' _ hr' _ hop => absurd hop (hnone' r' hr'),
      fun r' hr' hop => absurd hop (hnone' r' hr')⟩
  · have hnew := fun r' => @eq_of_pending_call (s.toCore.answer r) _ _ method hnone hcalls r'
    constructor
    · intro r' r'' hr' hr'' hop hop'
      rw [hnew r' hr' hop, hnew r'' hr'' hop']
    · intro _ _ _ hcancelled
      rw [hops] at hcancelled ⊢
      apply h.unfinished r hpending hcancelled
  · rw [hmethod] at hnot
    cases hnot

/-- Operations have at most one pending call if the handler answers every call at most once. -/
theorem step {p : State × Queues} {q : QueuedEvent} (h : OneCall p.1.toCore)
    (hwatched : Watched p.1.toCore []) (hcancelled : CancelledFinished p.1.toCore)
    (hanswers : AnswersOnce p q) :
  OneCall (runQueues md5 p q).1.toCore
  := by
  rw [fst_runQueues]
  have hnone : ∀ e : Event, e ≠ .restart → (∀ o, ¬ Involves p.1 e o) →
      OneCall (LCCFileService.step (quiet md5) p.1 e).toCore := by
    intro e he hnot
    apply h.of_involved hwatched he
    intro o hinvolves
    apply absurd hinvolves (hnot o)
  cases he : q.event with
  | opStart o => apply h.opStart hwatched hcancelled
  | finish r error =>
      rw [AnswersOnce, he] at hanswers
      by_cases hr : r < p.1.calls.next
      · apply h.finish hwatched hr (hanswers hr)
      · rw [LCCFileService.step, if_neg hr]
        apply h
  | restart =>
      constructor
      · rintro r r' ⟨⟨⟩, -⟩
      · rintro r ⟨⟨⟩, -⟩
  | _ => apply hnone _ (by rintro ⟨⟩) (by rintro o ⟨⟩)

end OneCall

/-! ### Transfers of a queue -/

/-- Operations with transfers in flight run, each with one transfer. -/
theorem Queued.inFlight_le {count : Nat → Nat} {p : State × Queues} (h : Queued count p)
    (hcalls : OneCall p.1.toCore) (ref : QueueRef) :
  (Queues.inFlight ref p).length ≤ maxConcurrentOperationCount count ref
  := by
  have hmem : ∀ r, r ∈ Queues.inFlight ref p ↔ r < p.1.calls.next ∧ Pending p.1.toCore r ∧
      (p.1.calls.cell r).op ∈ (p.2 ref).added ∧
        (p.1.ops.cell (p.1.calls.cell r).op).cancelled = false := by
    intro r
    rw [Queues.inFlight, List.mem_filter, List.mem_range, decide_eq_true_iff]
  have hnodup : ((Queues.inFlight ref p).map (fun r => (p.1.calls.cell r).op)).Nodup := by
    apply List.Nodup.map_on
    · intro r hr r' hr' heq
      apply hcalls.unique r r' ((hmem r).mp hr).2.1 ((hmem r').mp hr').2.1 heq
    · apply List.Nodup.filter
      apply List.nodup_range
  have hsubset : (Queues.inFlight ref p).map (fun r => (p.1.calls.cell r).op)
      ⊆ (p.2 ref).running p.1.isFinished := by
    intro o ho
    obtain ⟨r, hr, rfl⟩ := List.mem_map.mp ho
    obtain ⟨hlt, hpending, hadded, hcancelled⟩ := (hmem r).mp hr
    have hstarted := (h.watched.called r hlt hpending.2.1).2
    have hfinished := hcalls.unfinished r hpending hcancelled
    apply JobQueue.mem_running.mpr
    refine ⟨?_, hfinished⟩
    apply (h.started ref _ hadded hstarted).resolve_right
    rw [hfinished]
    simp
  have hle := (List.subperm_of_subset hnodup hsubset).length_le
  rw [List.length_map] at hle
  apply Nat.le_trans hle (h.inOrder ref).bounded

/-- In a run under the policy of the queues with a handler that answers every call at most once,
every queue begins its operations in the order they were added, and of its operations that have not
been cancelled at most as many are being transferred as it may run. -/
theorem throughout_inFlight_le {md5 : Bytes → String} {count : Nat → Nat} {db : TaskTable}
    {disk : Disk String Bytes} {es : List QueuedEvent}
    (hrun : Run.Along (runQueues md5) (fun p q => InTurn count p q ∧ AnswersOnce p q)
      (Queues.initial db disk) es) (ref : QueueRef) :
  Run.Throughout (runQueues md5)
    (fun p => (p.2 ref).begun.Sublist (p.2 ref).added ∧
      (Queues.inFlight ref p).length ≤ maxConcurrentOperationCount count ref)
    (Queues.initial db disk) es
  := by
  have hinitial : OneCall (Queues.initial db disk).1.toCore := by
    constructor
    · rintro r r' ⟨⟨⟩, -⟩
    · rintro r ⟨⟨⟩, -⟩
  have hall := Run.throughout_of_step (I := fun p => Queued count p ∧ OneCall p.1.toCore)
    (fun p q h hq => ⟨h.1.step hq.1, h.2.step h.1.watched h.1.cancelled hq.2⟩)
    ⟨Queued.initial db disk, hinitial⟩ hrun
  apply hall.imp
  rintro p ⟨h, hcalls⟩
  exact ⟨(h.inOrder ref).sublist, h.inFlight_le hcalls ref⟩

/-- Two downloads, of which the second begins when the first has finished. -/
def oneAfterAnother : List QueuedEvent :=
  [⟨.create { taskId := "k", type := .download }, none⟩,
    ⟨.create { taskId := "l", type := .download }, none⟩, ⟨.addHander 0, none⟩,
    ⟨.startTask 0, none⟩, ⟨.startTask 1, none⟩, ⟨.opStart 0, none⟩, ⟨.returns 0, none⟩,
    ⟨.finish 0 none, none⟩, ⟨.opStart 1, none⟩]

/-- The download queue begins the two downloads in their turn. -/
theorem inTurn_oneAfterAnother :
  Run.Along (runQueues (fun _ => "")) (InTurn (fun _ => 0))
    (Queues.initial ∅ (fun _ => none)) oneAfterAnother
  := by
  refine ⟨trivial, trivial, trivial, trivial, trivial, ?_, trivial, trivial, ?_, trivial⟩
  · intro _
    refine ⟨.downloadQueue, by decide +kernel, by decide +kernel, ?_, by decide +kernel⟩
    exact ⟨[], [1], by decide +kernel, by simp⟩
  · intro _
    refine ⟨.downloadQueue, by decide +kernel, by decide +kernel, ?_, by decide +kernel⟩
    exact ⟨[0], [], by decide +kernel, by decide +kernel⟩

theorem inFlight_le_oneAfterAnother :
  Run.Throughout (runQueues (fun _ => ""))
    (fun p => (p.2 .downloadQueue).begun.Sublist (p.2 .downloadQueue).added ∧
      (Queues.inFlight .downloadQueue p).length ≤ 1)
    (Queues.initial ∅ (fun _ => none)) oneAfterAnother
  := by
  have hanswers : Run.Along (runQueues (fun _ => "")) AnswersOnce
      (Queues.initial ∅ (fun _ => none)) oneAfterAnother := by
    refine ⟨trivial, trivial, trivial, trivial, trivial, trivial, trivial, ?_, trivial, trivial⟩
    intro _
    decide +kernel
  exact throughout_inFlight_le (Run.along_and.mpr ⟨inTurn_oneAfterAnother, hanswers⟩) .downloadQueue

/-! ### Answered calls -/

/-- Calls are only added, and those that were answered stay so. -/
def KeepsAnswers (c c' : Core) : Prop :=
  c.calls.next ≤ c'.calls.next ∧
    ∀ r < c.calls.next, (c.calls.cell r).answered → (c'.calls.cell r).answered

namespace KeepsAnswers

variable {c c' c'' : Core}

theorem of_eq (h : c'.calls = c.calls) :
  KeepsAnswers c c'
  := by
  rw [KeepsAnswers, h]
  exact ⟨Nat.le_refl _, fun _ _ => id⟩

theorem trans (h : KeepsAnswers c c') (h' : KeepsAnswers c' c'') :
  KeepsAnswers c c''
  := by
  refine ⟨Nat.le_trans h.1 h'.1, ?_⟩
  intro r hr hanswered
  apply h'.2 r (Nat.lt_of_lt_of_le hr h.1) (h.2 r hr hanswered)

theorem call (o : OpRef) (method : HanderMethod) (c : Core) :
  KeepsAnswers c (c.call o method)
  := by
  refine ⟨Nat.le_succ _, ?_⟩
  intro r hr hanswered
  rw [Core.call, Heap.cell_alloc_of_lt _ hr]
  apply hanswered

theorem answer (r : CallRef) (c : Core) :
  KeepsAnswers c (c.answer r)
  := by
  refine ⟨Nat.le_refl _, ?_⟩
  intro r' _ hanswered
  rw [Core.answer, Heap.cell_modify]
  split
  · rfl
  · apply hanswered

theorem changes {F : String → Prop} (h : Changes F c c') :
  KeepsAnswers c c'
  := by
  induction h with
  | refl => apply of_eq rfl
  | tail _ hchange ih =>
      apply ih.trans
      cases hchange with
      | call o hmethod => apply call
      | _ => exact of_eq rfl

variable {md5 : Bytes → String} {s : State}

theorem opStart (o : OpRef) (s : State) :
  KeepsAnswers s.toCore (LCCFileService.step (quiet md5) s (.opStart o)).toCore
  := by
  by_cases hguard : o < s.ops.next ∧ (s.ops.cell o).started = false
  · rw [step_opStart hguard]
    split
    · exact of_eq rfl
    · obtain ⟨-, hcalls⟩ := @main_ops_calls md5 o (s.mapCore (running o))
      obtain ⟨-, method, -, heq⟩ | ⟨-, heq | heq⟩ := mainTransfer_cases o (running o s.toCore)
      · rw [State.toCore_mapCore, heq] at hcalls
        apply (call o method s.toCore).trans
        apply of_eq hcalls
      · rw [State.toCore_mapCore, heq] at hcalls
        apply of_eq hcalls
      · rw [State.toCore_mapCore, heq] at hcalls
        apply of_eq hcalls
  · rw [LCCFileService.step, if_neg hguard]
    apply of_eq rfl

theorem finishBlock (method : HanderMethod) (o : OpRef) (error : Option NSError) (s : State) :
  KeepsAnswers s.toCore (LCFileNetOperation.finishBlock (quiet md5) method o error s).toCore
  := by
  obtain ⟨-, -, hcalls⟩ | ⟨-, method', -, -, hcalls⟩ | ⟨-, heq⟩ :=
    @finishBlock_ops_calls md5 method error o s
  · apply of_eq hcalls
  · apply (call o method' s.toCore).trans
    apply of_eq hcalls
  · rw [heq]
    apply of_eq rfl

/-- No event takes an answer back. -/
theorem step {e : Event} (he : e ≠ .restart) :
  KeepsAnswers s.toCore (LCCFileService.step (quiet md5) s e).toCore
  := by
  cases e with
  | set r t =>
      rw [LCCFileService.step]
      split
      · exact of_eq rfl
      · apply of_eq rfl
  | updatetask key filePath => exact of_eq rfl
  | opStart o => apply opStart
  | progress r =>
      rw [LCCFileService.step]
      split
      · rw [toCore_progressBlock]
        split
        · exact of_eq rfl
        · exact of_eq rfl
      · apply of_eq rfl
  | finish r error =>
      rw [LCCFileService.step]
      split
      · apply (answer r s.toCore).trans
        apply finishBlock _ _ _ (s.mapCore (·.answer r))
      · apply of_eq rfl
  | restart => apply absurd rfl he
  | _ => apply changes (Changes.step s rfl)

/-- A call whose finish block is called has been answered. -/
theorem answered_finish {r : CallRef} (hr : r < s.calls.next) (error : Option NSError) :
  ((LCCFileService.step (quiet md5) s (.finish r error)).calls.cell r).answered
  := by
  have hanswer : ((s.toCore.answer r).calls.cell r).answered := by
    rw [Core.answer, Heap.cell_modify_self]
  rw [LCCFileService.step, if_pos hr]
  apply (finishBlock _ _ error (s.mapCore (·.answer r))).2 r hr hanswer

end KeepsAnswers

end LCCFileService
