import LCCFileService.AWSS3.Copies
import LCCFileService.AWSS3.Entries

/-!
# Live entries

An entry of `taskDic` is live if its transfer is one of the task with the id and may still end.
In a run without restored history all entries are live, and no completion removes the entry of
a newer transfer, as long as no transfer is cancelled that is entered, none is entered that has
ended, and each that completes with its own handler is the one entered.
-/

namespace LCCFileService

open LCS3Hander

/-- The transfers in `taskDic` are transfers of the tasks with the ids, and have neither completed
nor failed nor been cancelled. -/
def EntriesLive (s : System) : Prop :=
  ∀ k r, s.taskDic.lookup k = some r → (s.transfers.cell r).live ∧
    ∃ handler ∈ (s.transfers.cell r).completionHandler, s.idOf handler.request = some k

/-- If a transfer ends by the event, the entries of newer transfers stay. -/
def KeepsNewer (E : Env) (s : System) : HanderEvent → Prop
  | .ends r error => ∀ k r', s.taskDic.lookup k = some r' → r < r' →
      (System.step E s (.ends r error)).taskDic.lookup k = some r'
  | _ => True

/-- The continuation enters no transfer that has ended. -/
def EntersLive (s : System) : Continuation → Prop
  | .started q r => (s.idOf q).isSome → (s.transfers.cell r).live
  | _ => True

/-- A transfer that is entered may still end, one that completes with the handler it was started
with leaves no newer one under the id of its task, one that completes with the handler of a
resumption is not entered, and none that is entered is cancelled. -/
def KeepsTable (s : System) : HanderEvent → Prop
  | .goOn i _ _ => ∀ c ∈ s.waiting[i]?, EntersLive s c
  | .ends r error => mayEnd r error s → ∀ handler ∈ (s.transfers.cell r).completionHandler,
      if handler.removes then ∀ r' ∈ awsTask handler.request s, r' ≤ r
      else awsTask handler.request s ≠ some r
  | e => ∀ r ∈ made s e, r.method = .cancel → entry r s = none

instance (s : System) : (c : Continuation) → Decidable (EntersLive s c)
  | .started q r => inferInstanceAs (Decidable ((s.idOf q).isSome → (s.transfers.cell r).live))
  | .replicate _ _ _ | .copyURL _ _ | .copyItem _ _ | .copied _ _ _ | .start _ _ _ _ | .url _ =>
      isTrue trivial

instance (s : System) : (e : HanderEvent) → Decidable (KeepsTable s e)
  | .goOn i _ _ => inferInstanceAs (Decidable (∀ c ∈ s.waiting[i]?, _))
  | .ends r error => inferInstanceAs (Decidable (mayEnd r error s → ∀ handler ∈
      (s.transfers.cell r).completionHandler, ite _ _ _))
  | .service e => inferInstanceAs (Decidable (∀ q ∈ made s (.service e), _))
  | .call r => inferInstanceAs (Decidable (∀ q ∈ made s (.call r), _))
  | .request method task => inferInstanceAs (Decidable (∀ q ∈ made s (.request method task), _))
  | .body r body => inferInstanceAs (Decidable (∀ q ∈ made s (.body r body), _))
  | .progress r c t => inferInstanceAs (Decidable (∀ q ∈ made s (.progress r c t), _))
  | .loadHistory u m d => inferInstanceAs (Decidable (∀ q ∈ made s (.loadHistory u m d), _))

/-! ### Live transfers -/

/-- The transfers in `taskDic` may still end. -/
def AllLive (s : System) : Prop := ∀ k r, s.taskDic.lookup k = some r → (s.transfers.cell r).live

@[simp]
theorem live_suspend (t : AWSS3TransferUtilityTask) :
  t.suspend.live = t.live
  := by
  rw [AWSS3TransferUtilityTask.suspend]
  split
  · next h => simp [AWSS3TransferUtilityTask.live, h]
  · rfl

@[simp]
theorem live_resume (t : AWSS3TransferUtilityTask) :
  t.resume.live = t.live
  := by
  rw [AWSS3TransferUtilityTask.resume]
  split
  · next h => simp [AWSS3TransferUtilityTask.live, h]
  · rfl

section

variable {md5 : Bytes → String} {owner : TransferRef → Option String} {s s' : System}

/-- Where transfers are attributed, the entries are live if their transfers may still end. -/
theorem Attributed.entriesLive_iff (h : Attributed owner s) :
  EntriesLive s ↔ AllLive s
  := by
  constructor
  · intro hentries k r hk
    apply (hentries k r hk).1
  · intro hlive k r hk
    refine ⟨hlive k r hk, ?_⟩
    obtain ⟨-, hheld⟩ := h.tracked r (Or.inr ⟨k, hk⟩)
    obtain ⟨handler, hhandler⟩ := Option.isSome_iff_exists.mp (hheld (hlive k r hk)).1
    exact ⟨handler, hhandler, (h.own r handler hhandler).trans (h.entries k r hk)⟩

theorem AllLive.of_eq (htransfers : s'.transfers = s.transfers) (htaskDic : s'.taskDic = s.taskDic)
    (h : AllLive s) :
  AllLive s'
  := by
  rw [AllLive, htransfers, htaskDic]
  apply h

/-- A message that neither ends nor cancels its transfer. -/
theorem AllLive.send (h : AllLive s) (r : TransferRef) (message : TransferMessage)
    {f : AWSS3TransferUtilityTask → AWSS3TransferUtilityTask} (hf : ∀ t, (f t).live = t.live) :
  AllLive (s.send r message f)
  := by
  intro k r' hk
  have hlive := h k r' hk
  rw [System.cell_send]
  split
  · next heq =>
      rw [hf, ← heq]
      apply hlive
  · apply hlive

/-- Resuming installs a completion handler in a transfer that has not ended. -/
theorem AllLive.resumTask (h : AllLive s) (hattr : Attributed owner s) (takes : TransferKind → Bool)
    (q : RequestRef) :
  AllLive (LCS3Hander.resumTask (quiet md5) takes q s)
  := by
  rw [LCS3Hander.resumTask]
  split
  · next r hr =>
      obtain ⟨k, -, hk⟩ := Attributed.awsTask_eq_some hr
      split
      · have hunended := ((hattr.tracked r (Or.inr ⟨k, hk⟩)).2 (h k r hk)).2
        have hcell := System.cell_send r .setCompletionHandler
          (fun t => { t with completionHandler := some ⟨q, false⟩ }) s r
        rw [if_pos rfl] at hcell
        have hinstall : AllLive (LCS3Hander.setCompletionHandler (quiet md5) r ⟨q, false⟩ s) := by
          rw [LCS3Hander.setCompletionHandler, hcell, if_neg]
          · exact h.send r _ (fun _ => rfl)
          · rw [Bool.not_eq_true]
            apply hunended
        apply hinstall.send r .resume live_resume
      · apply h
  · apply h.of_eq (Still.finishCallback _ _ _).transfers (Still.finishCallback _ _ _).taskDic

/-- A request keeps the entries live exactly if it cancels none. -/
theorem allLive_request_iff (h : AllLive s) (hattr : Attributed owner s) {r : Request}
    (hr : r.method.transfers → r.task < s.tasks.next) :
  AllLive (LCS3Hander.request (quiet md5) r s) ↔ (r.method = .cancel → entry r s = none)
  := by
  have hcell : (s.addRequest r).requests.cell s.requests.next = r := Heap.cell_alloc_next _ _
  have htask : awsTask s.requests.next (s.addRequest r) = entry r s := by
    rw [awsTask, System.taskOfRequest, hcell]
    rfl
  have hadd := hattr.addRequest hr
  have hlive : AllLive (s.addRequest r) := h
  rw [LCS3Hander.request, callMethod, hcell]
  cases hmethod : r.method with
  | upload =>
      have hreplies := @Replies.lcFileNetHanderUpload (quiet md5) s.requests.next (s.addRequest r)
      have hstill := (Works.of_replies hreplies).still
      apply iff_of_true (hlive.of_eq hstill.transfers hstill.taskDic) (by rintro ⟨⟩)
  | download =>
      have hreplies := @Replies.lcFileNetHanderDownload (quiet md5) s.requests.next (s.addRequest r)
      have hstill := (Works.of_replies hreplies).still
      apply iff_of_true (hlive.of_eq hstill.transfers hstill.taskDic) (by rintro ⟨⟩)
  | resumUpload => apply iff_of_true (hlive.resumTask hadd _ _) (by rintro ⟨⟩)
  | resumDownload => apply iff_of_true (hlive.resumTask hadd _ _) (by rintro ⟨⟩)
  | cancel =>
      dsimp only
      rw [lcFileNetHanderCancelTask, htask]
      cases hentry : entry r s with
      | none => apply iff_of_true hlive (fun _ => rfl)
      | some transfer =>
          obtain ⟨k, -, hk⟩ := Option.bind_eq_some_iff.mp hentry
          refine iff_of_false ?_ (by simp)
          intro hcancelled
          have hnot := hcancelled k transfer hk
          rw [System.cell_send, if_pos rfl] at hnot
          cases hnot
  | pause =>
      dsimp only
      refine iff_of_true ?_ (by rintro ⟨⟩)
      rw [lcFileNetHanderPauseTask, htask]
      split
      · apply hlive.send _ _ live_suspend
      · apply hlive

/-- What goes on keeps the entries live exactly if it enters no transfer that has ended. -/
theorem allLive_goOn_iff (h : AllLive s) (hattr : Attributed owner s) {i : Nat} {c : Continuation}
    (hi : s.waiting[i]? = some c) (url : Option String) (error : Option NSError) :
  AllLive (LCS3Hander.goOn (quiet md5) url error c (s.dropWaiting i)) ↔ EntersLive s c
  := by
  have hstill : (∀ q kind key path, c ≠ .start q kind key path) → (∀ q r, c ≠ .started q r) →
      AllLive (LCS3Hander.goOn (quiet md5) url error c (s.dropWaiting i)) := by
    intro hstart hstarted
    have hstill := (@Works.goOn (quiet md5) c hstart hstarted url error (s.dropWaiting i)).still
    apply h.of_eq hstill.transfers hstill.taskDic
  cases c with
  | replicate q source key => apply iff_of_true (hstill (by simp) (by simp)) trivial
  | copyURL q source => apply iff_of_true (hstill (by simp) (by simp)) trivial
  | copyItem q source => apply iff_of_true (hstill (by simp) (by simp)) trivial
  | copied q source copyError => apply iff_of_true (hstill (by simp) (by simp)) trivial
  | url q => apply iff_of_true (hstill (by simp) (by simp)) trivial
  | start q kind key path =>
      refine iff_of_true ?_ trivial
      cases error with
      | some error =>
          have hstill := @Still.finishCallback (quiet md5) q (some error) (s.dropWaiting i)
          apply h.of_eq hstill.transfers hstill.taskDic
      | none =>
          intro k r hk
          have hlt := (hattr.tracked r (Or.inr ⟨k, hk⟩)).1
          have hcell := Heap.cell_alloc_of_lt
            { kind, key, path, completionHandler := some ⟨q, true⟩ } hlt
          have hlive := h k r hk
          rw [← hcell] at hlive
          apply hlive
  | started q r =>
      rw [EntersLive, LCS3Hander.goOn, LCS3Hander.setObject]
      cases hid : s.idOf q with
      | none =>
          have hid' : ((s.dropWaiting i).taskOfRequest q).taskId = none := hid
          rw [hid']
          apply iff_of_true h (by rintro ⟨⟩)
      | some k =>
          have hid' : ((s.dropWaiting i).taskOfRequest q).taskId = some k := hid
          rw [hid']
          constructor
          · rintro hlive -
            apply hlive k r
            apply AList.lookup_insert s.taskDic
          · intro hlive k' r' hk'
            rw [System.toHander_mapHander, Dictionary.lookup_insert] at hk'
            split at hk'
            · obtain rfl := Option.some.inj hk'
              apply hlive rfl
            · apply h k' r' hk'

/-! ### The end of a transfer -/

/-- The key under which the completion handler of a transfer removes it from `taskDic`. -/
def removedKey (r : TransferRef) (s : System) : Option String :=
  (s.transfers.cell r).completionHandler.bind
    (fun handler => if handler.removes then s.idOf handler.request else none)

theorem lookup_removeObject (q : RequestRef) (s : System) (k : String) :
  (LCS3Hander.removeObject q s).taskDic.lookup k =
    if s.idOf q = some k then none else s.taskDic.lookup k
  := by
  rw [LCS3Hander.removeObject]
  split
  · next taskId htaskId =>
      have hid : s.idOf q = some taskId := htaskId
      rw [hid, System.toHander_mapHander, Dictionary.lookup_erase]
      simp only [Option.some.injEq, eq_comm]
  · next hnone =>
      have hid : s.idOf q = none := hnone
      rw [hid]
      rfl

/-- A completion removes the entry at the key of its completion handler, and ends no transfer. -/
theorem complete_effect (hattr : Attributed owner s) (r : TransferRef) :
  (∀ k, (LCS3Hander.complete (quiet md5) r s).taskDic.lookup k =
      if removedKey r s = some k then none else s.taskDic.lookup k) ∧
    ∀ r', ((LCS3Hander.complete (quiet md5) r s).transfers.cell r').live =
      (s.transfers.cell r').live
  := by
  rw [LCS3Hander.complete]
  cases hhandler : (s.transfers.cell r).completionHandler with
  | none =>
      have hkey : removedKey r s = none := by
        rw [removedKey, hhandler]
        rfl
      dsimp only
      rw [hkey]
      exact ⟨fun _ => rfl, fun _ => rfl⟩
  | some handler =>
      dsimp only
      have hkey : removedKey r s = if handler.removes then s.idOf handler.request else none := by
        rw [removedKey, hhandler]
        rfl
      have hmade := hattr.held r handler hhandler
      have hworks := @Works.answerCompletion (quiet md5) handler.request
        (s.transfers.cell r).kind (s.transfers.cell r).error s
      have hstill := hworks.still
      have hid := hattr.idOf_eq hworks.driven hmade (by rw [hworks.waits.1])
      have hrun := (@Pledges.runCompletionHandler (quiet md5) (s.transfers.cell r).kind handler
        (s.transfers.cell r).error s).transfers
      constructor
      · intro k
        rw [hkey]
        have hset : ∀ s' : System, (s'.setTransfer r
            (fun t => { t with completionHandler := none })).taskDic = s'.taskDic := fun _ => rfl
        rw [hset, runCompletionHandler]
        cases handler.removes with
        | true =>
            simp only [if_true]
            rw [lookup_removeObject, hid, hstill.taskDic]
        | false =>
            simp only [Bool.false_eq_true, if_false]
            rw [hstill.taskDic]
            rfl
      · intro r'
        rw [System.cell_setTransfer, hrun]
        split
        · next heq =>
            rw [heq]
            rfl
        · rfl

/-- A transfer that ends is completed with nothing else changed that its completion depends on. -/
theorem endTransfer_eq_complete (hattr : Attributed owner s) (r : TransferRef)
    (error : Option NSError) :
  ∃ s', LCS3Hander.endTransfer (quiet md5) r error s = LCS3Hander.complete (quiet md5) r s' ∧
    Attributed owner s' ∧ (∀ q, s'.idOf q = s.idOf q) ∧ s'.taskDic = s.taskDic ∧
    ∀ r', s'.transfers.cell r' =
      if r' = r then (s.transfers.cell r).finish error else s.transfers.cell r'
  := by
  have hof : ∀ s₁ : System, Attributed owner s₁ → (∀ q, s₁.idOf q = s.idOf q) → Still s s₁ →
      Attributed owner (s₁.setTransfer r (AWSS3TransferUtilityTask.finish error)) ∧
        (∀ q, (s₁.setTransfer r (AWSS3TransferUtilityTask.finish error)).idOf q = s.idOf q) ∧
        (s₁.setTransfer r (AWSS3TransferUtilityTask.finish error)).taskDic = s.taskDic ∧
        ∀ r', (s₁.setTransfer r (AWSS3TransferUtilityTask.finish error)).transfers.cell r' =
          if r' = r then (s.transfers.cell r).finish error else s.transfers.cell r' := by
    intro s₁ hattr₁ hid hstill
    refine ⟨hattr₁.setTransfer r (Fades.finish error _), hid, hstill.taskDic, ?_⟩
    intro r'
    rw [System.cell_setTransfer, hstill.transfers]
  refine ⟨_, rfl, ?_⟩
  split
  · apply hof s hattr (fun _ => rfl) (Still.same rfl rfl rfl rfl)
  · apply hof _ (hattr.transferred _) _ (Still.transferred _ s)
    intro q
    rw [LCS3Hander.transferred]
    split
    · split
      · rfl
      · rfl
    · rfl

/-- The end of a transfer removes the entry at the key of its completion handler, and ends no other
transfer. -/
theorem endTransfer_effect (hattr : Attributed owner s) (r : TransferRef) (error : Option NSError) :
  (∀ k, (LCS3Hander.endTransfer (quiet md5) r error s).taskDic.lookup k =
      if removedKey r s = some k then none else s.taskDic.lookup k) ∧
    ∀ r', ((LCS3Hander.endTransfer (quiet md5) r error s).transfers.cell r').live = true ↔
      r' ≠ r ∧ (s.transfers.cell r').live
  := by
  obtain ⟨s', heq, hattr', hid, htaskDic, hcell⟩ :=
    @endTransfer_eq_complete md5 owner s hattr r error
  obtain ⟨hdic, hlive⟩ := @complete_effect md5 owner s' hattr' r
  have hkey : removedKey r s' = removedKey r s := by
    rw [removedKey, removedKey, hcell, if_pos rfl]
    simp only [hid]
    rfl
  rw [heq]
  constructor
  · intro k
    rw [hdic, hkey, htaskDic]
  · intro r'
    rw [hlive, hcell]
    split
    · next heq =>
        refine iff_of_false ?_ (fun h => h.1 heq)
        cases error with
        | none => rintro ⟨⟩
        | some error => rintro ⟨⟩
    · next hne => exact ⟨fun h => ⟨hne, h⟩, fun h => h.2⟩

/-- The entries are live after the end of a transfer exactly if it is removed under every key that
it is entered under. -/
theorem allLive_endTransfer_iff_removed (h : AllLive s) (hattr : Attributed owner s)
    (r : TransferRef) (error : Option NSError) :
  AllLive (LCS3Hander.endTransfer (quiet md5) r error s) ↔
    ∀ k, s.taskDic.lookup k = some r → removedKey r s = some k
  := by
  obtain ⟨hdic, hlive⟩ := @endTransfer_effect md5 owner s hattr r error
  constructor
  · intro hafter k hk
    by_contra hkey
    have hremains := (hdic k).trans ((if_neg hkey).trans hk)
    have hnot := (hlive r).mp (hafter k r hremains)
    apply hnot.1 rfl
  · intro hremoved k r' hr'
    rw [hdic] at hr'
    split at hr'
    · cases hr'
    · next hkey =>
        rw [hlive]
        refine ⟨?_, h k r' hr'⟩
        rintro rfl
        apply hkey (hremoved k hr')

/-- The end of a transfer keeps the entries of newer transfers exactly if it removes none. -/
theorem keepsNewer_endTransfer_iff (hattr : Attributed owner s) (r : TransferRef)
    (error : Option NSError) :
  (∀ k r', s.taskDic.lookup k = some r' → r < r' →
      (LCS3Hander.endTransfer (quiet md5) r error s).taskDic.lookup k = some r') ↔
    ∀ k, removedKey r s = some k → ∀ r' ∈ s.taskDic.lookup k, r' ≤ r
  := by
  obtain ⟨hdic, -⟩ := @endTransfer_effect md5 owner s hattr r error
  constructor
  · intro hnewer k hkey r' hr'
    by_contra hlt
    have hremains := hnewer k r' hr' (Nat.lt_of_not_le hlt)
    rw [hdic, if_pos hkey] at hremains
    cases hremains
  · intro hle k r' hr' hlt
    rw [hdic, if_neg]
    · apply hr'
    · intro hkey
      apply absurd (hle k hkey r' hr') (Nat.not_le.mpr hlt)

/-- The end of a transfer keeps the entries live, and those of newer transfers, exactly if its
completion handler is the one it was started with and leaves no newer entry under its key, or it is
not entered. -/
theorem allLive_endTransfer_iff (h : AllLive s) (hattr : Attributed owner s) {r : TransferRef}
    {error : Option NSError} (hmay : mayEnd r error s) :
  AllLive (LCS3Hander.endTransfer (quiet md5) r error s) ∧
      (∀ k r', s.taskDic.lookup k = some r' → r < r' →
        (LCS3Hander.endTransfer (quiet md5) r error s).taskDic.lookup k = some r') ↔
    ∀ handler ∈ (s.transfers.cell r).completionHandler,
      if handler.removes then ∀ r' ∈ awsTask handler.request s, r' ≤ r
      else awsTask handler.request s ≠ some r
  := by
  rw [allLive_endTransfer_iff_removed h hattr, keepsNewer_endTransfer_iff hattr]
  have hends : (s.transfers.cell r).live := by
    rw [mayEnd, Bool.and_eq_true, Bool.and_eq_true] at hmay
    apply hmay.1.2
  cases hhandler : (s.transfers.cell r).completionHandler with
  | none =>
      have hkey : removedKey r s = none := by
        rw [removedKey, hhandler]
        rfl
      rw [hkey]
      refine iff_of_true ⟨?_, by rintro k ⟨⟩⟩ (by rintro handler ⟨⟩)
      intro k hk
      have hheld := ((hattr.tracked r (Or.inr ⟨k, hk⟩)).2 hends).1
      rw [hhandler] at hheld
      cases hheld
  | some handler =>
      have hkey : removedKey r s = if handler.removes then s.idOf handler.request else none := by
        rw [removedKey, hhandler]
        rfl
      have hown : ∀ k, s.taskDic.lookup k = some r → s.idOf handler.request = some k :=
        fun k hk => (hattr.own r handler hhandler).trans (hattr.entries k r hk)
      have hall : (∀ handler' ∈ some handler,
          if handler'.removes then ∀ r' ∈ awsTask handler'.request s, r' ≤ r
          else awsTask handler'.request s ≠ some r) ↔
          if handler.removes then ∀ r' ∈ awsTask handler.request s, r' ≤ r
          else awsTask handler.request s ≠ some r := by
        simp
      rw [hall]
      cases hremoves : handler.removes with
      | true =>
          rw [hremoves, if_pos rfl] at hkey
          rw [hkey, if_pos rfl]
          constructor
          · rintro ⟨-, hle⟩ r' hr'
            obtain ⟨k, hk, hr'⟩ := Option.bind_eq_some_iff.mp hr'
            apply hle k hk r' hr'
          · intro hle
            refine ⟨hown, ?_⟩
            intro k hk r' hr'
            apply hle r' (Option.bind_eq_some_iff.mpr ⟨k, hk, hr'⟩)
      | false =>
          rw [hremoves, if_neg Bool.false_ne_true] at hkey
          rw [hkey, if_neg Bool.false_ne_true]
          constructor
          · rintro ⟨hentered, -⟩ hr
            obtain ⟨k, -, hk⟩ := Attributed.awsTask_eq_some hr
            cases hentered k hk
          · intro hne
            refine ⟨?_, by rintro k ⟨⟩⟩
            intro k hk
            apply absurd (Option.bind_eq_some_iff.mpr ⟨k, hown k hk, hk⟩) hne

/-! ### Steps and runs -/

/-- The service keeps the entries, or starts without any. -/
theorem AllLive.service (h : AllLive s) (e : Event) :
  AllLive (System.step (quiet md5) s (.service e))
  := by
  by_cases hrestart : e = .restart
  · subst hrestart
    rintro k r ⟨⟩
  · have hstate : AllLive (s.mapState (fun s => LCCFileService.step (quiet md5) s e)) := h
    cases e with
    | restart => apply absurd rfl hrestart
    | progress r => apply h
    | finish r error => apply h
    | _ => apply hstate

/-- The body of an answer keeps the entries. -/
theorem AllLive.body (h : AllLive s) (r : TransferRef) (body : Bytes) :
  AllLive (System.step (quiet md5) s (.body r body))
  := by
  rw [System.step]
  split
  · exact h
  · exact h

/-- A progress report keeps the entries. -/
theorem AllLive.progress (h : AllLive s) (r : TransferRef) (completed total : Int) :
  AllLive (System.step (quiet md5) s (.progress r completed total))
  := by
  rw [System.step]
  split
  · rw [LCS3Hander.progressBlock]
    split
    · next handler _ =>
          have hstill := (@Works.progressed (quiet md5) handler.request completed total s).still
          apply h.of_eq hstill.transfers hstill.taskDic
    · apply h
  · apply h

/-- A step keeps the entries live, and those of newer transfers, exactly if it has the property. -/
theorem allLive_step_iff (hlive : AllLive s) (h : Attributed owner s) {e : HanderEvent}
    (he : ∀ uploadTask multiPartUploadTask downloadTask,
      e ≠ .loadHistory uploadTask multiPartUploadTask downloadTask) :
  AllLive (System.step (quiet md5) s e) ∧ KeepsNewer (quiet md5) s e ↔ KeepsTable s e
  := by
  have hrequests : ∀ {r}, made s e = some r →
      (AllLive (System.step (quiet md5) s e) ↔ (r.method = .cancel → entry r s = none)) := by
    intro r hr
    rw [step_eq_request hr]
    apply allLive_request_iff hlive h (h.task_of_made hr)
  have hmade : (made s e = none → System.step (quiet md5) s e = s) →
      (AllLive (System.step (quiet md5) s e) ↔
        ∀ r ∈ made s e, r.method = .cancel → entry r s = none) := by
    intro hnone
    cases hr : made s e with
    | none =>
        rw [hnone hr]
        apply iff_of_true hlive (by rintro r ⟨⟩)
    | some r => simpa using hrequests hr
  cases e with
  | service e => apply iff_of_true ⟨hlive.service e, trivial⟩ (by rintro r ⟨⟩)
  | body r body => apply iff_of_true ⟨hlive.body r body, trivial⟩ (by rintro r ⟨⟩)
  | progress r completed total =>
      apply iff_of_true ⟨hlive.progress r completed total, trivial⟩ (by rintro r ⟨⟩)
  | loadHistory uploadTask multiPartUploadTask downloadTask =>
      apply absurd rfl (he uploadTask multiPartUploadTask downloadTask)
  | call r =>
      rw [hmade]
      · apply and_iff_left trivial
      · intro hnone
        rw [made] at hnone
        rw [System.step, if_neg]
        rintro huncalled
        rw [if_pos huncalled] at hnone
        cases hnone
  | request method task =>
      rw [hmade]
      · apply and_iff_left trivial
      · intro hnone
        rw [made] at hnone
        rw [System.step, if_neg]
        rintro htask
        rw [if_pos htask] at hnone
        cases hnone
  | goOn i url error =>
      have hnewer : KeepsNewer (quiet md5) s (.goOn i url error) := trivial
      rw [and_iff_left hnewer, System.step, KeepsTable]
      cases hi : s.waiting[i]? with
      | none => apply iff_of_true hlive (by rintro c ⟨⟩)
      | some c =>
          have hgoOn := @allLive_goOn_iff md5 owner s hlive h i c hi url error
          dsimp only
          split
          · simpa using hgoOn
          · next hmay =>
              refine iff_of_true hlive ?_
              rintro c ⟨⟩
              cases c with
              | started q r => apply absurd rfl hmay
              | _ => trivial
  | ends r error =>
      rw [KeepsNewer, System.step, KeepsTable]
      by_cases hmay : mayEnd r error s
      · rw [if_pos hmay, allLive_endTransfer_iff hlive h hmay]
        exact ⟨fun hkeeps _ => hkeeps, fun hkeeps => hkeeps hmay⟩
      · rw [if_neg hmay]
        apply iff_of_true ⟨hlive, fun k r' hk _ => hk⟩ (fun hmay' => absurd hmay' hmay)

/-- A step keeps the entries live, and those of newer transfers, exactly if it has the property. -/
theorem entriesLive_step_iff (h : ∃ owner, Attributed owner s) (hentries : EntriesLive s)
    {e : HanderEvent}
    (he : ∀ uploadTask multiPartUploadTask downloadTask,
      e ≠ .loadHistory uploadTask multiPartUploadTask downloadTask) :
  EntriesLive (System.step (quiet md5) s e) ∧ KeepsNewer (quiet md5) s e ↔ KeepsTable s e
  := by
  obtain ⟨owner, h⟩ := h
  obtain ⟨owner', h'⟩ := @Attributed.step md5 owner s h e he
  rw [h'.entriesLive_iff]
  apply allLive_step_iff (h.entriesLive_iff.mp hentries) h he

end

/-- In a run without restored history the transfers in `taskDic` are transfers of the tasks with
the ids that have not ended, and no completion removes the entry of a newer one, exactly if no
transfer is entered that has ended, none that is entered is cancelled or completes with the handler
of a resumption, and none completes with its own while a newer one is entered for its task. -/
theorem throughout_entriesLive_iff (md5 : Bytes → String) (db : TaskTable)
    (disk : Disk String Bytes) (transfers : Heap AWSS3TransferUtilityTask)
    (bucket : Disk String Bytes) (es : List HanderEvent)
    (hes : ∀ uploadTask multiPartUploadTask downloadTask,
      .loadHistory uploadTask multiPartUploadTask downloadTask ∉ es) :
  Run.Throughout (System.step (quiet md5)) EntriesLive
      (System.initial db disk transfers bucket) es ∧
    Run.Along (System.step (quiet md5)) (KeepsNewer (quiet md5))
      (System.initial db disk transfers bucket) es ↔
    Run.Along (System.step (quiet md5)) KeepsTable (System.initial db disk transfers bucket) es
  := by
  apply Run.throughout_and_along_iff (A := fun s => ∃ owner, Attributed owner s)
    (R := fun _ e => ∀ uploadTask multiPartUploadTask downloadTask,
      e ≠ HanderEvent.loadHistory uploadTask multiPartUploadTask downloadTask)
  · rintro s e ⟨owner, h⟩ he
    apply h.step he
  · intro s e h hentries he
    apply entriesLive_step_iff h hentries he
  · exact ⟨fun _ => none, Attributed.initial _ db disk transfers bucket⟩
  · rintro k r ⟨⟩
  · apply Run.along_of_mem
    rintro e he s u m d rfl
    apply hes u m d he

/-- The system when the process starts, with a file. -/
def oneFile : System :=
  System.initial (Table.empty _) (fun path => if path = "/a" then some [1] else none) Heap.empty
    (fun _ => none)

/-- The file is uploaded; the transfer is entered when it has started. -/
def enteredUpload : List HanderEvent :=
  [.service (.create { taskId := "a", fileKey := "k", filePath := "/a", type := .upload }),
    .request .upload 0, .goOn 0 none none, .goOn 0 none none]

/-- A transfer that is entered, paused and then completes with its own handler keeps the table. -/
theorem throughout_entriesLive_enteredUpload :
  Run.Throughout (System.step (quiet fun _ => "m")) EntriesLive oneFile
      (enteredUpload ++ [.request .pause 0, .ends 0 none]) ∧
    Run.Along (System.step (quiet fun _ => "m")) (KeepsNewer (quiet fun _ => "m")) oneFile
      (enteredUpload ++ [.request .pause 0, .ends 0 none])
  := by
  have hes : ∀ uploadTask multiPartUploadTask downloadTask,
      HanderEvent.loadHistory uploadTask multiPartUploadTask downloadTask ∉
        enteredUpload ++ [.request .pause 0, .ends 0 none] := by
    simp [enteredUpload]
  have hkeeps : Run.Along (System.step (quiet fun _ => "m")) KeepsTable oneFile
      (enteredUpload ++ [.request .pause 0, .ends 0 none]) := by
    decide +kernel
  apply (throughout_entriesLive_iff _ _ _ _ _ _ hes).mpr hkeeps

/-- A transfer that completes after it was resumed stays in the table: the completion handler of
the resumption, unlike the one of the start, does not remove it. -/
theorem not_throughout_entriesLive_resumed :
  ¬ Run.Throughout (System.step (quiet fun _ => "m")) EntriesLive oneFile
      (enteredUpload ++ [.request .pause 0, .request .resumUpload 0, .ends 0 none])
  := by
  intro h
  have hlive := (h.final "a" 0 (by decide +kernel)).1
  have hended : ((Run.final (System.step (quiet fun _ => "m")) oneFile
      (enteredUpload ++ [.request .pause 0, .request .resumUpload 0, .ends 0 none])).transfers.cell
        0).live = false := by
    decide +kernel
  rw [hended] at hlive
  cases hlive

end LCCFileService
