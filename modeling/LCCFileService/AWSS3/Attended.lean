import LCCFileService.AWSS3.Refinement

/-!
# Operations that are attended to

In the system of the service, the handler and S3 an operation that was started and is neither
cancelled nor finished is never forgotten: a method of the handler is yet to be called for it, or
something is to call the finish block of such a call, a continuation that waits or a transfer that
has not ended.
-/

namespace LCCFileService

open LCS3Hander LCFileNetOperation

/-! ### Who is to answer -/

/-- The finish block of the request is to be called, by a continuation that waits, or by the
completion handler of a transfer that has not ended. -/
def Owed (q : RequestRef) (s : System) : Prop :=
  (∃ c ∈ s.waiting, c.answers ∧ c.request = q) ∨
    ∃ r < s.transfers.next, (s.transfers.cell r).heldBy q ∧ (s.transfers.cell r).ended = false

/-- A call for the operation has not been answered, and the handler is yet to be called with it, or
owes the answer. -/
def Attended (o : OpRef) (s : System) : Prop :=
  ∃ r < s.calls.next, (s.calls.cell r).op = o ∧ (s.calls.cell r).method.transfers ∧
    (s.calls.cell r).answered = false ∧
      (uncalled r s ∨ ∃ q < s.requests.next, (s.requests.cell q).call = some r ∧ Owed q s)

/-- The operations that are not cancelled have handlers. -/
def Handed (c : Core) : Prop :=
  ∀ o < c.ops.next, (c.ops.cell o).cancelled = false → (c.handerOf o).isSome

/-- The operations that are not cancelled have handlers, and one that starts has a task of known
type; a resumption finds no transfer of another class, and takes over a transfer from a request for
an operation only if that operation is cancelled; and no file copy goes on for a task without
`filePath`. -/
structure Attends (s : System) (e : HanderEvent) : Prop where
  handed : Handed s.toCore
  typed : ∀ o < s.ops.next, e = .service (.opStart o) →
    (s.tasks.cell (s.taskOf o)).type ≠ .unknown
  rightClass : RightClass s e
  copies : CopiesToPath s e
  replaces : ∀ q, Replaces q s e → ∀ r, (s.requests.cell q).call = some r →
    (s.ops.cell (s.calls.cell r).op).cancelled

instance (c : Core) : Decidable (Handed c) := inferInstanceAs (Decidable (∀ o, o < c.ops.next → _))

theorem Attends.answerable {s : System} {e : HanderEvent} (h : Attends s e) :
  Answerable s e
  := ⟨h.rightClass, h.copies⟩

/-- Where no resumption is requested, nothing is taken over. -/
theorem Attends.of_not_resumes {s : System} {e : HanderEvent} (hhanded : Handed s.toCore)
    (htyped : ∀ o < s.ops.next, e = .service (.opStart o) →
      (s.tasks.cell (s.taskOf o)).type ≠ .unknown) (hcopies : CopiesToPath s e)
    (hresumes : ∀ r ∈ made s e, r.method.resumes = false) :
  Attends s e
  := by
  refine ⟨hhanded, htyped, ?_, hcopies, ?_⟩
  · intro r hr hresumes'
    rw [hresumes r hr] at hresumes'
    cases hresumes'
  · rintro q ⟨r, hmakes, htakes⟩
    rw [takesOver, hresumes r hmakes] at htakes
    cases htakes

/-! ### The operations of the service -/

section

variable {md5 : Bytes → String} {s : State}

/-- The operations of the service proceed. -/
def Proceeding (c : Core) : Prop :=
  ∃ os, Watched c os ∧ ∀ o < c.ops.next, Proceeds o c os

/-- Operations with handlers go on proceeding if those that start have tasks of known type. -/
theorem Proceeding.step (h : Proceeding s.toCore) {e : Event} (hhanded : Handed s.toCore)
    (htyped : ∀ o < s.ops.next, e = .opStart o → (s.tasks.cell (s.taskOf o)).type ≠ .unknown) :
  Proceeding (LCCFileService.step (quiet md5) s e).toCore
  := by
  obtain ⟨os, hwatched, hproceeds⟩ := h
  refine ⟨record s e os, hwatched.step e, ?_⟩
  apply (proceeds_step_iff hwatched hproceeds e).mpr
  cases e with
  | opStart o =>
      intro hguard hcancelled
      exact ⟨hhanded o hguard.1 hcancelled, htyped o hguard.1 rfl⟩
  | finish r error =>
      rintro ⟨hr, hresumes, -⟩ hcancelled
      left
      apply hhanded _ (hwatched.called r hr (transfers_of_resumes hresumes)).1 hcancelled
  | _ => trivial

/-- Acts of the handler add no operation, and take no handler away. -/
theorem handerOf_act {e : Event} (hact : ActOfHander s e) :
  (LCCFileService.step (quiet md5) s e).ops.next = s.ops.next ∧
    ∀ o, (LCCFileService.step (quiet md5) s e).handerOf o = s.handerOf o
  := by
  have hsetOp : ∀ (c : Core) (o : OpRef), (pFinishOperatioin o c).ops.next = c.ops.next ∧
      ∀ o', (pFinishOperatioin o c).handerOf o' = c.handerOf o' :=
    fun c o => ⟨rfl, fun o' => Core.handerOf_setOp rfl o'⟩
  cases e with
  | progress r =>
      rw [step]
      split
      · rw [toCore_progressBlock]
        split
        · apply hsetOp
        · exact ⟨rfl, fun _ => rfl⟩
      · exact ⟨rfl, fun _ => rfl⟩
  | finish r error =>
      rw [step]
      split
      · by_cases hends : (s.calls.cell r).method.Ends error
        · rw [finishBlock_ends hends, toCore_ended_outcome]
          apply hsetOp
        · obtain heq | heq | heq := finishBlock_of_not_ends hends (quiet md5) (s.calls.cell r).op
            (s.mapCore (·.answer r))
          · rw [heq]
            exact ⟨rfl, fun _ => rfl⟩
          · rw [heq, State.toCore_mapCore, LCFileNetOperation.pStartUpload]
            split
            · exact ⟨rfl, fun _ => rfl⟩
            · apply hsetOp
          · rw [heq, State.toCore_mapCore, LCFileNetOperation.pStartDownload]
            split
            · exact ⟨rfl, fun _ => rfl⟩
            · apply hsetOp
      · exact ⟨rfl, fun _ => rfl⟩
  | set r t =>
      rw [step]
      split
      · exact ⟨rfl, fun _ => rfl⟩
      · exact ⟨rfl, fun _ => rfl⟩
  | edit path content => exact ⟨rfl, fun _ => rfl⟩
  | startTask task =>
      have hid : (s.tasks.cell task).taskId = none := hact
      rw [step]
      split
      · rw [LCFileNetService.lcStartTask]
        simp only [hid]
        exact ⟨rfl, fun _ => rfl⟩
      · exact ⟨rfl, fun _ => rfl⟩
  | _ => cases hact

/-- Operations that are not cancelled keep their handlers upon acts of the handler. -/
theorem Handed.act (h : Handed s.toCore) {e : Event} (hact : ActOfHander s e) :
  Handed (LCCFileService.step (quiet md5) s e).toCore
  := by
  obtain ⟨hnext, hhander⟩ := @handerOf_act md5 s e hact
  have hadvance := @Advance.step md5 s e (by
    rintro rfl
    cases hact)
  intro o ho hcancelled
  rw [hnext] at ho
  rw [hhander]
  apply h o ho
  by_contra hnot
  rw [hadvance.cancelled o ho (by simpa using hnot)] at hcancelled
  cases hcancelled

end

/-! ### The requests of the system -/

section

variable {md5 : Bytes → String} {s s' : System}

/-- Operations, calls and tasks are only added upon acts of the handler. -/
theorem Acts.advance {q : RequestRef} (h : Acts md5 q s s') :
  Advance (fun _ => True) s.toCore s'.toCore
  := by
  apply h.service.invariant (I := fun t => Advance (fun _ => True) s.toCore t.toCore) _
    (Steady.refl s.toCore).toAdvance
  intro t e hadvance hact
  apply hadvance.trans
  apply (Advance.step t _).mono (fun _ _ => trivial)
  rintro rfl
  cases hact

/-- Operations, calls and tasks are only added as long as the process lives. -/
theorem Does.advance {e : HanderEvent} (h : Does md5 s e s') (he : e ≠ .service .restart) :
  Advance (fun _ => True) s.toCore s'.toCore
  := by
  cases h with
  | nothing => apply (Steady.refl s.toCore).toAdvance
  | service hservice => apply (Advance.step _ hservice).mono (fun _ _ => trivial)
  | restart => apply absurd rfl he
  | works _ hq h => apply h.advance
  | steers _ h => apply (h 0).advance
  | request hmakes htransfers htask h => apply h.advance
  | message hmakes htransfers h => apply (h 0).advance

/-- The requests that are calls of the service are calls of the same methods, and a call whose
finish block was called has been answered. -/
structure Answering (s : System) : Prop where
  call : ∀ q < s.requests.next, ∀ r, (s.requests.cell q).call = some r →
    r < s.calls.next ∧ (s.calls.cell r).method = (s.requests.cell q).method
  answered : ∀ a ∈ s.answers, a.1 < s.requests.next ∧
    ∀ r, (s.requests.cell a.1).call = some r → (s.calls.cell r).answered

namespace Answering

/-- Calls stay linked where the service and the handler add to what they have. -/
theorem advance (h : Answering s) (hadvance : Advance (fun _ => True) s.toCore s'.toCore)
    (hkeeps : KeepsAnswers s.toCore s'.toCore) (hrequests : s'.requests = s.requests)
    (hanswers : ∀ a ∈ s'.answers, a ∈ s.answers ∨ a.1 < s.requests.next ∧
      ∀ r, (s.requests.cell a.1).call = some r → (s'.calls.cell r).answered) :
  Answering s'
  := by
  constructor
  · intro q hq r hr
    rw [hrequests] at hq hr ⊢
    obtain ⟨hlt, hmethod⟩ := h.call q hq r hr
    rw [hadvance.method r hlt]
    exact ⟨Nat.lt_of_lt_of_le hlt hadvance.calls_le, hmethod⟩
  · intro a ha
    rw [hrequests]
    obtain ha | hnew := hanswers a ha
    · obtain ⟨hq, hanswered⟩ := h.answered a ha
      refine ⟨hq, ?_⟩
      intro r hr
      apply hkeeps.2 r (h.call a.1 hq r hr).1 (hanswered r hr)
    · apply hnew

/-- Acts for a request that has been made. -/
theorem acts (h : Answering s) {q : RequestRef} (hq : q < s.requests.next)
    (hacts : Acts md5 q s s') :
  Answering s'
  := by
  apply h.advance hacts.advance hacts.keepsAnswers hacts.requests
  intro a ha
  obtain ha | ⟨rfl, hanswered⟩ := hacts.answers a ha
  · apply Or.inl ha
  · refine Or.inr ⟨hq, ?_⟩
    intro r hr
    apply hanswered r hr (h.call a.1 hq r hr).1

/-- Acts that are for no request in particular call no finish block. -/
theorem acts_of_forall (h : Answering s) (hacts : ∀ q, Acts md5 q s s') :
  Answering s'
  := by
  apply h.advance (hacts 0).advance (hacts 0).keepsAnswers (hacts 0).requests
  intro a ha
  apply Or.inl
  obtain ha | ⟨heq, -⟩ := (hacts (a.1 + 1)).answers a ha
  · apply ha
  · apply absurd heq (Nat.ne_of_lt (Nat.lt_succ_self _))

/-- A request is made. -/
theorem addRequest (h : Answering s) {e : HanderEvent} {r : Request} (hmakes : Makes s r e) :
  Answering (s.addRequest r)
  := by
  have hcell : ∀ q, (s.addRequest r).requests.cell q
      = if q = s.requests.next then r else s.requests.cell q := fun q => Heap.cell_alloc r _ q
  have hcall : ∀ c, r.call = some c → c < s.calls.next ∧ (s.calls.cell c).method = r.method := by
    intro c hc
    cases e with
    | call c' =>
        rw [Makes, made] at hmakes
        split at hmakes
        · next huncalled =>
            obtain rfl := Option.some.inj hmakes
            obtain rfl := Option.some.inj hc
            rw [uncalled, Bool.and_eq_true, decide_eq_true_iff] at huncalled
            exact ⟨huncalled.1, rfl⟩
        · cases hmakes
    | request method task =>
        rw [Makes, made] at hmakes
        split at hmakes
        · obtain rfl := Option.some.inj hmakes
          cases hc
        · cases hmakes
    | _ => cases hmakes
  constructor
  · intro q hq c hc
    rw [hcell] at hc ⊢
    split at hc
    · next heq =>
        rw [if_pos heq]
        apply hcall c hc
    · next hne =>
        rw [if_neg hne]
        apply h.call q (Nat.lt_of_le_of_ne (Nat.lt_succ_iff.mp hq) hne) c hc
  · intro a ha
    obtain ⟨hq, hanswered⟩ := h.answered a ha
    refine ⟨Nat.lt_succ_of_lt hq, ?_⟩
    rw [hcell, if_neg (Nat.ne_of_lt hq)]
    apply hanswered

theorem initial (db : TaskTable) (disk : Disk String Bytes)
    (transfers : Heap AWSS3TransferUtilityTask) (bucket : Disk String Bytes) :
  Answering (System.initial db disk transfers bucket)
  := by
  constructor
  · rintro q ⟨⟩
  · rintro a ⟨⟩

/-- Calls stay linked whatever the system does. -/
theorem does (h : Answering s) {e : HanderEvent} (hdoes : Does md5 s e s') :
  Answering s'
  := by
  cases hdoes with
  | nothing => apply h
  | service he =>
      exact h.advance ((Advance.step _ he).mono (fun _ _ => trivial)) (KeepsAnswers.step he) rfl
        (fun _ ha => Or.inl ha)
  | restart => apply initial
  | works _ hq hacts => apply h.acts hq.1 hacts
  | steers _ hacts => apply h.acts_of_forall hacts
  | request hmakes htransfers htask hacts =>
      apply (h.addRequest hmakes).acts (Nat.lt_succ_self _) hacts
  | message hmakes htransfers hacts => apply (h.addRequest hmakes).acts_of_forall hacts

end Answering

end

/-! ### Runs -/

/-- The finish block of a request that is a call for an operation that is not cancelled was called
or is to be called, and the operations of the service proceed. -/
structure Attending (s : System) : Prop where
  founded : Founded s
  linked : Answering s
  tidy : Tidy s
  fresh : Fresh s
  unended : Unended s
  oncePromised : ∀ q < s.requests.next, (s.requests.cell q).method.transfers →
    ∀ r, (s.requests.cell q).call = some r →
      promised q s = 1 ∨ (s.ops.cell (s.calls.cell r).op).cancelled
  proceeding : Proceeding s.toCore

namespace Attending

variable {md5 : Bytes → String} {s s' : System}

theorem initial (db : TaskTable) (disk : Disk String Bytes)
    (transfers : Heap AWSS3TransferUtilityTask) (bucket : Disk String Bytes) :
  Attending (System.initial db disk transfers bucket)
  := by
  constructor
  · apply Founded.initial
  · apply Answering.initial
  · constructor
    · rintro k r ⟨⟩
    · rintro q r ⟨⟩
  · intro q _
    have hnone : ¬ 0 < (System.initial db disk transfers bucket).transfers.count
        (AWSS3TransferUtilityTask.heldBy q) := by
      rw [Heap.count_pos_iff]
      rintro ⟨r, -, ⟨⟩⟩
    rw [promised, Nat.eq_zero_of_not_pos hnone]
    rfl
  · apply Unended.initial
  · rintro q ⟨⟩
  · refine ⟨[], ?_, by rintro o ⟨⟩⟩
    apply Watched.initial

/-- The operations of the service go on proceeding. -/
theorem proceeding_step (h : Attending s) {e : HanderEvent} (hattends : Attends s e)
    (hdoes : Does md5 s e s') :
  Proceeding s'.toCore
  := by
  have hacts : ∀ t : State, Run.Reaches (LCCFileService.step (quiet md5)) ActOfHander s.toState t →
      Proceeding t.toCore := by
    intro t hreaches
    have hboth := hreaches.invariant (I := fun t => Proceeding t.toCore ∧ Handed t.toCore) (by
      rintro t e ⟨hproceeding, hhanded⟩ hact
      refine ⟨hproceeding.step hhanded ?_, hhanded.act hact⟩
      rintro o - rfl
      cases hact) ⟨h.proceeding, hattends.handed⟩
    apply hboth.1
  cases hdoes with
  | nothing => apply h.proceeding
  | service he =>
      apply h.proceeding.step hattends.handed
      rintro o ho rfl
      apply hattends.typed o ho rfl
  | restart => exact (initial s.db s.disk s.transfers s.bucket).proceeding
  | works _ hq hacts' => apply hacts _ hacts'.service
  | steers _ hacts' => apply hacts _ (hacts' 0).service
  | request hmakes htransfers htask hacts' => exact hacts _ hacts'.service
  | message hmakes htransfers hacts' => exact hacts _ (hacts' 0).service

/-- Calls of operations that are not cancelled go on being promised their answers. -/
theorem promised_step (h : Attending s) {e : HanderEvent} (hattends : Attends s e)
    (he : e ≠ .service .restart) {q : RequestRef}
    (hq : q < (System.step (quiet md5) s e).requests.next)
    (hmethod : ((System.step (quiet md5) s e).requests.cell q).method.transfers) {r : CallRef}
    (hr : ((System.step (quiet md5) s e).requests.cell q).call = some r) :
  promised q (System.step (quiet md5) s e) = 1 ∨
    ((System.step (quiet md5) s e).ops.cell
      ((System.step (quiet md5) s e).calls.cell r).op).cancelled
  := by
  have hadvance := (@Founded.does md5 s h.founded e).advance he
  obtain ⟨-, hrequests⟩ := @requests_step (quiet md5) s e h.tidy he hattends.answerable
  have hold : q < s.requests.next → (System.step (quiet md5) s e).requests.cell q
      = s.requests.cell q := by
    intro hlt
    obtain ⟨r', -, -, heq⟩ | heq := hrequests
    · rw [heq, Heap.cell_alloc_of_lt _ hlt]
    · rw [heq]
  by_cases hlt : q < s.requests.next
  · rw [hold hlt] at hmethod hr
    obtain ⟨hr', hmethod'⟩ := h.linked.call q hlt r hr
    have hop : (s.calls.cell r).op < s.ops.next := by
      apply h.founded.calls r hr'
      rw [hmethod']
      apply hmethod
    rw [hadvance.op r hr']
    -- What the request was promised is kept, unless another takes its transfer over.
    obtain ⟨-, hsame | hreplaces⟩ :=
      @LCCFileService.promised_step (quiet md5) s e h.tidy he hattends.answerable q hlt
    · obtain hone | hcancelled := h.oncePromised q hlt hmethod r hr
      · rw [hsame]
        apply Or.inl hone
      · apply Or.inr (hadvance.cancelled _ hop hcancelled)
    · apply Or.inr (hadvance.cancelled _ hop (hattends.replaces q hreplaces r hr))
  · obtain ⟨r', hmakes, hstep, heq⟩ | heq := hrequests
    · left
      obtain rfl : q = s.requests.next := by
        rw [heq] at hq
        apply Nat.le_antisymm (Nat.lt_succ_iff.mp hq) (Nat.le_of_not_lt hlt)
      rw [heq, Heap.cell_alloc_next] at hmethod
      rw [hstep, promised_new h.tidy h.fresh (hattends.rightClass r' hmakes), if_pos hmethod]
    · rw [heq] at hq
      apply absurd hq hlt

theorem step (h : Attending s) {e : HanderEvent} (hattends : Attends s e) :
  Attending (System.step (quiet md5) s e)
  := by
  have hdoes := @Founded.does md5 s h.founded e
  by_cases he : e = .service .restart
  · rw [he]
    apply initial
  · constructor
    · apply h.founded.step e
    · apply h.linked.does hdoes
    · apply (requests_step h.tidy he hattends.answerable).1
    · apply h.fresh.step h.tidy he hattends.answerable
    · apply h.unended.step e
    · intro q hq hmethod r hr
      apply h.promised_step hattends he hq hmethod hr
    · apply h.proceeding_step hattends hdoes

/-- A request that is promised one call of its finish block, which was not called, is owed it. -/
theorem owed (h : Attending s) {q : RequestRef} {r : CallRef}
    (hr : (s.requests.cell q).call = some r) (hanswered : (s.calls.cell r).answered = false)
    (hpromised : promised q s = 1) :
  Owed q s
  := by
  have hnone : s.answers.countP (fun a => a.1 = q) = 0 := by
    apply List.countP_eq_zero.mpr
    intro a ha heq
    rw [decide_eq_true_iff] at heq
    subst heq
    rw [(h.linked.answered a ha).2 r hr] at hanswered
    cases hanswered
  rw [promised, pledged, hnone, Nat.zero_add] at hpromised
  by_cases hwaiting : 0 < s.waiting.countP (fun c => c.answers && c.request = q)
  · left
    obtain ⟨c, hc, hanswers⟩ := List.countP_pos_iff.mp hwaiting
    rw [Bool.and_eq_true, decide_eq_true_eq] at hanswers
    exact ⟨c, hc, hanswers⟩
  · right
    have hheld : 0 < s.transfers.count (AWSS3TransferUtilityTask.heldBy q) := by omega
    obtain ⟨t, ht, hheld⟩ := Heap.count_pos_iff.mp hheld
    refine ⟨t, ht, hheld, h.unended t ?_⟩
    rw [AWSS3TransferUtilityTask.heldBy, Option.any_eq_true] at hheld
    obtain ⟨handler, hhandler, -⟩ := hheld
    apply Option.isSome_of_eq_some hhandler

/-- An operation that was started and is neither cancelled nor finished is attended to. -/
theorem attended (h : Attending s) {o : OpRef} (ho : o < s.ops.next)
    (hstarted : (s.ops.cell o).started) (hcancelled : (s.ops.cell o).cancelled = false) :
  (s.ops.cell o).finished ∨ Attended o s
  := by
  obtain ⟨os, -, hproceeds⟩ := h.proceeding
  obtain ⟨r, hr, rfl, hmethod, hanswered⟩ | ⟨hfinished, -⟩ := hproceeds o ho hstarted hcancelled
  · right
    refine ⟨r, hr, rfl, hmethod, hanswered, ?_⟩
    by_cases huncalled : uncalled r s
    · apply Or.inl huncalled
    · obtain ⟨q, hq, hcall⟩ : ∃ q < s.requests.next, (s.requests.cell q).call = some r := by
        by_contra hnone
        apply huncalled
        rw [uncalled, Bool.and_eq_true, decide_eq_true_iff, List.all_eq_true]
        refine ⟨hr, ?_⟩
        intro q hq
        rw [decide_eq_true_iff]
        exact fun hcall => hnone ⟨q, List.mem_range.mp hq, hcall⟩
      refine Or.inr ⟨q, hq, hcall, ?_⟩
      rw [(h.linked.call q hq r hcall).2] at hmethod
      apply h.owed hcall hanswered
      apply (h.oncePromised q hq hmethod r hcall).resolve_right
      rw [hcancelled]
      simp
  · apply Or.inl hfinished

end Attending

/-- In every run of the system every operation that was started is cancelled, finished, or attended
to, if the operations have handlers and tasks of known type, resumptions find transfers of the class
they take, and take over those of cancelled operations only, and files are copied for tasks with a
`filePath`. -/
theorem throughout_attended {md5 : Bytes → String} {db : TaskTable} {disk : Disk String Bytes}
    {transfers : Heap AWSS3TransferUtilityTask} {bucket : Disk String Bytes} {es : List HanderEvent}
    (hes : Run.Along (System.step (quiet md5)) Attends (System.initial db disk transfers bucket)
      es) :
  Run.Throughout (System.step (quiet md5))
    (fun s => ∀ o < s.ops.next, (s.ops.cell o).started → (s.ops.cell o).cancelled = false →
      (s.ops.cell o).finished ∨ Attended o s) (System.initial db disk transfers bucket) es
  := by
  have hthroughout := Run.throughout_of_step
    (fun s e (h : Attending s) hattends => @Attending.step md5 s h e hattends)
    (Attending.initial db disk transfers bucket) hes
  apply hthroughout.imp
  intro s h o ho
  apply h.attended ho

/-- A download is attended to from its start to its end. -/
theorem attended_download :
  Run.Throughout (System.step (quiet (fun _ => "")))
    (fun s => ∀ o < s.ops.next, (s.ops.cell o).started → (s.ops.cell o).cancelled = false →
      (s.ops.cell o).finished ∨ Attended o s)
    (System.initial ∅ (fun _ => none) .empty (fun _ => some []))
    [.service (.create { taskId := "k", fileKey := "f", filePath := "/d", type := .download }),
      .service (.addHander 0), .service (.startTask 0), .service (.opStart 0), .call 0,
      .goOn 0 none none, .service (.returns 0), .goOn 0 none none, .ends 0 none]
  := by
  apply throughout_attended
  refine ⟨?_, ?_, ?_, ?_, ?_, ?_, ?_, ?_, ?_, trivial⟩
  all_goals apply Attends.of_not_resumes <;> decide +kernel

end LCCFileService
