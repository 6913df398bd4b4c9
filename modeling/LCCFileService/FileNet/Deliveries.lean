import LCCFileService.FileNet.Callers

/-!
# Deliveries

`Owes L s` says that the ledger `L` of the trace of `s` agrees with the finish callbacks
registered in `s`.  `Served L s s'` says that from `s` to `s'` deliveries came and went, and
those under way in `s` are as they were.  Every method of the service and every block of an
operation serves, if the callbacks it tells do and it is permitted; by induction on the depth
of the calls, so do callbacks whose calls are permitted.
-/

namespace LCCFileService

open LCFileNetService LCFileNetOperation Delivery

/-- The ledger of the trace agrees with the registered finish callbacks. -/
structure Owes (L : Ledger String Block) (s : State) : Prop where
  replay : Ledger.empty.replay s.trace = some L
  owed : ∀ k ∉ L.delivering, registered .finish k s = L.owed k
  settled : ∀ k ∈ L.delivering, L.owed k = []
  arrays : ArraysMade s
  sound : Sound s.toCore

/-- The deliveries under way are as they were. -/
structure Kept (L : Ledger String Block) (s : State) (L' : Ledger String Block) (s' : State) :
    Prop where
  owes : Owes L' s'
  due : L'.due = L.due
  callbacks : ∀ k ∈ L.delivering, registered .finish k s' = registered .finish k s
  advance : Advance (fun _ => True) s.toCore s'.toCore

/-- The deliveries under way are kept. -/
def Served (L : Ledger String Block) (s s' : State) : Prop := ∃ L', Kept L s L' s'

/-- Whoever is told a note keeps the deliveries under way. -/
def Env.Serves (E : Env) : Prop := ∀ note L s, Owes L s → Served L s (E.react note s)

namespace Owes

variable {L : Ledger String Block} {s s' : State}

/-- Only the core, the observers and the notes differ. -/
theorem congr (h : Owes L s) (htrace : s'.trace = s.trace)
    (hcallbacks : s'.callbackCache = s.callbackCache) (harrays : ArraysMade s')
    (hsound : Sound s'.toCore) :
  Owes L s'
  := by
  constructor
  · rw [htrace]
    apply h.replay
  · intro k hk
    rw [registered, hcallbacks]
    apply h.owed k hk
  · apply h.settled
  · apply harrays
  · apply hsound

/-- The task ids whose finish is being delivered are those of the ledger. -/
theorem delivering_eq (h : Owes L s) :
  delivering s = L.delivering
  := by
  rw [LCCFileService.delivering, h.replay]
  rfl

/-- What is owed for a task id with no delivery is registered. -/
theorem owed_of_free (h : Owes L s) {k : String} (hfree : Free k s) :
  L.owed k = registered .finish k s
  := by
  by_cases hk : k ∈ L.delivering
  · rw [h.settled k hk, hfree (by rw [h.delivering_eq]; exact hk)]
  · apply (h.owed k hk).symm

theorem kept_refl (h : Owes L s) :
  Kept L s L s
  := ⟨h, rfl, fun _ _ => rfl, (Steady.refl s.toCore).toAdvance⟩

theorem refl (h : Owes L s) :
  Served L s s
  := ⟨L, h.kept_refl⟩

end Owes

namespace Kept

variable {L L' L'' : Ledger String Block} {s s' s'' : State}

theorem trans (h : Kept L s L' s') (h' : Kept L' s' L'' s'') :
  Kept L s L'' s''
  := by
  constructor
  · apply h'.owes
  · rw [h'.due, h.due]
  · intro k hk
    have hk' : k ∈ L'.delivering := by
      rw [Ledger.delivering, h.due]
      apply hk
    rw [h'.callbacks k hk', h.callbacks k hk]
  · apply h.advance.trans h'.advance

/-- Keeping the deliveries keeps the task ids free that were. -/
theorem free (h : Kept L s L' s') (howes : Owes L s) {k : String} (hfree : Free k s) :
  Free k s'
  := by
  intro hk
  rw [h.owes.delivering_eq, Ledger.delivering, h.due] at hk
  rw [h.callbacks k hk]
  apply hfree
  rw [howes.delivering_eq]
  apply hk

theorem served (h : Kept L s L' s') (h' : Served L' s' s'') :
  Served L s s''
  := by
  obtain ⟨L'', h'⟩ := h'
  exact ⟨L'', h.trans h'⟩

end Kept

namespace Served

variable {L : Ledger String Block} {s s' s'' : State}

/-- What is served after what was served. -/
theorem andThen (h : Served L s s') (h' : ∀ L', Kept L s L' s' → Served L' s' s'') :
  Served L s s''
  := by
  obtain ⟨L', h⟩ := h
  apply h.served (h' L' h)

/-- A move of the core. -/
theorem mapCore (h : Owes L s) {f : Core → Core} (hf : Moves s.toCore (f s.toCore)) :
  Served L s (s.mapCore f)
  := by
  obtain ⟨hsound, hadvance⟩ := hf h.sound
  use L
  constructor
  · apply h.congr
    · rfl
    · rfl
    · exact ⟨h.arrays.cached, h.arrays.enumerated, h.arrays.notRaised⟩
    · apply hsound
  · rfl
  · intro k _
    rfl
  · apply hadvance

/-- A change of observers and notes. -/
theorem of_eq (h : Owes L s) (htrace : s'.trace = s.trace)
    (hcallbacks : s'.callbackCache = s.callbackCache) (harrays : ArraysMade s')
    (hcore : s'.toCore = s.toCore) :
  Served L s s'
  := by
  use L
  constructor
  · apply h.congr htrace hcallbacks harrays
    rw [hcore]
    apply h.sound
  · rfl
  · intro k _
    rw [registered, registered, hcallbacks]
  · rw [hcore]
    apply (Steady.refl s.toCore).toAdvance

/-- What serves serves when it is repeated. -/
theorem foldl {α : Type} {f : State → α → State}
    (hf : ∀ L s a, Owes L s → Served L s (f s a)) (as : List α) (h : Owes L s) :
  Served L s (as.foldl f s)
  := by
  induction as generalizing L s with
  | nil => apply h.refl
  | cons a as ih =>
      apply (hf L s a h).andThen
      intro L' hkept
      apply ih hkept.owes

/-- An array is being enumerated. -/
theorem push (h : Owes L s) {ref : Nat} (href : ref < s.arrays) :
  Served L s { s with enumerated := ref :: s.enumerated }
  := by
  apply Served.of_eq h
  · rfl
  · rfl
  · constructor
    · apply h.arrays.cached
    · intro ref' href'
      rcases List.mem_cons.mp href' with rfl | href'
      · apply href
      · apply h.arrays.enumerated ref' href'
    · apply h.arrays.notRaised
  · rfl

/-- An array is enumerated no more. -/
theorem pop (h : Owes L s) (ref : Nat) :
  Served L s { s with enumerated := s.enumerated.erase ref }
  := by
  apply Served.of_eq h
  · rfl
  · rfl
  · constructor
    · apply h.arrays.cached
    · intro ref' href'
      apply h.arrays.enumerated ref' (List.mem_of_mem_erase href')
    · apply h.arrays.notRaised
  · rfl

end Served

/-! ### Notifications -/

section

variable {E : Env} (hE : E.Serves) {L : Ledger String Block} {s : State}

include hE

theorem served_tell (note : Note) (h : Owes L s) :
  Served L s (tell E note s)
  := by
  have hnote : Served L s { s with notes := s.notes ++ [note] } := by
    apply Served.of_eq h
    · rfl
    · rfl
    · exact ⟨h.arrays.cached, h.arrays.enumerated, h.arrays.notRaised⟩
    · rfl
  apply hnote.andThen
  intro L' hkept
  apply hE note L' _ hkept.owes

theorem served_tellObservers (kind : NoteKind) (task : TaskRef) (error : Option NSError)
    (h : Owes L s) :
  Served L s (tellObservers E kind task error s)
  := by
  have hfound : ∀ {L : Ledger String Block} {s : State} (finder : List ObserverRef), Owes L s →
      Served L s (finder.foldl
        (fun s o => tell E { kind, recipient := .found o, task, error } s) s) := by
    intro L s finder h
    apply Served.foldl _ finder h
    intro L s o h
    apply served_tell hE _ h
  rw [tellObservers]
  cases s.observer with
  | none => apply hfound s.finder h
  | some o =>
      have hobserver := served_tell hE { kind, recipient := .observer o, task, error } h
      apply hobserver.andThen
      intro L' hkept
      apply hfound _ hkept.owes

/-- Enumerating callbacks that are told a note. -/
theorem served_enumerate (note : Block → Note) {callbacks : Option CallbackArray}
    (hcallbacks : ∀ a ∈ callbacks, a.ref < s.arrays) (h : Owes L s) :
  Served L s (enumerate (fun b s => tell E (note b) s) callbacks s)
  := by
  cases callbacks with
  | none => apply h.refl
  | some a =>
      have hpush := Served.push h (hcallbacks a rfl)
      apply (hpush.andThen _).andThen
      · intro L' hkept
        apply Served.pop hkept.owes
      · intro L' hkept
        apply Served.foldl _ a.blocks hkept.owes
        intro L s b h
        apply served_tell hE _ h

omit hE in
/-- The array cached for a task has been made. -/
theorem ref_lt_of_cached (h : Owes L s) {kind : NoteKind} {task : TaskRef} {a : CallbackArray}
    (ha : a ∈ cached kind task s) :
  a.ref < s.arrays
  := by
  obtain ⟨k, -, ha⟩ := Option.bind_eq_some_iff.mp ha
  apply h.arrays.cached kind k a ha

theorem served_pNotifyProgress (task : TaskRef) (h : Owes L s) :
  Served L s (pNotifyProgress E task s)
  := by
  rw [pNotifyProgress]
  split
  · apply h.refl
  · apply (served_tellObservers hE .progress task none h).andThen
    intro L' hkept
    apply served_enumerate hE _ _ hkept.owes
    intro a ha
    apply ref_lt_of_cached hkept.owes ha

theorem served_pNotifyStatusChange (task : TaskRef) (h : Owes L s) :
  Served L s (pNotifyStatusChange E task s)
  := by
  rw [pNotifyStatusChange]
  apply (served_tellObservers hE .status task none h).andThen
  intro L' hkept
  apply served_enumerate hE _ _ hkept.owes
  intro a ha
  apply ref_lt_of_cached hkept.owes ha

/-! ### Delivering -/

omit hE in
/-- The next callback due is invoked. -/
theorem Owes.invoke {k : String} {b : Block} {bs : List Block} {due : List (String × List Block)}
    (h : Owes L s) (hdue : L.due = (k, b :: bs) :: due) :
  Owes { L with due := (k, bs) :: due } (s.enter (.invoke k b))
  := by
  have hdelivering : L.delivering = k :: due.map Prod.fst := by
    rw [Ledger.delivering, hdue]
    rfl
  constructor
  · rw [State.enter, Ledger.replay_concat, h.replay]
    apply Ledger.enter_invoke hdue
  · intro k' hk'
    apply h.owed k'
    rw [hdelivering]
    apply hk'
  · intro k' hk'
    apply h.settled k'
    rw [hdelivering]
    apply hk'
  · exact ⟨h.arrays.cached, h.arrays.enumerated, h.arrays.notRaised⟩
  · apply h.sound

/-- All callbacks due are invoked. -/
theorem kept_invokeAll (note : Block → Note) {k : String} {bs : List Block}
    {due : List (String × List Block)} (h : Owes L s) (hdue : L.due = (k, bs) :: due) :
  Served { L with due := (k, []) :: due } s
    (bs.foldl (fun s b => tell E (note b) (s.enter (.invoke k b))) s)
  := by
  induction bs generalizing L s with
  | nil =>
      rw [← hdue]
      apply h.refl
  | cons b bs ih =>
      obtain ⟨L₁, hkept⟩ := served_tell hE (note b) (h.invoke hdue)
      obtain ⟨L₂, hrest⟩ := ih hkept.owes hkept.due
      use L₂
      constructor
      · apply hrest.owes
      · apply hrest.due
      · intro k' hk'
        rw [List.foldl_cons, hrest.callbacks k' hk', hkept.callbacks k' hk']
        rfl
      · apply hkept.advance.trans hrest.advance

/-- From `s`, where finish callbacks of the task id are due, to `s'` they have been delivered. -/
structure Paid (k : String) (due : List (String × List Block)) (s : State)
    (L' : Ledger String Block) (s' : State) : Prop where
  owes : Owes L' s'
  rest : L'.due = due
  none_registered : registered .finish k s' = []
  callbacks : ∀ k' ∈ due.map Prod.fst, k' ≠ k →
    registered .finish k' s' = registered .finish k' s
  advance : Advance (fun _ => True) s.toCore s'.toCore

omit hE in
/-- The callbacks of the task id are dropped when all have been invoked. -/
theorem Owes.drop {k : String} {due : List (String × List Block)} (h : Owes L s)
    (hdue : L.due = (k, []) :: due) :
  Paid k due s { L with due } ({ s with
    callbackCache := fun kind => AList.erase k (s.callbackCache kind) }.enter (.done k))
  := by
  have hdelivering : L.delivering = k :: due.map Prod.fst := by
    rw [Ledger.delivering, hdue]
    rfl
  have howed : L.owed k = [] := by
    apply h.settled
    rw [hdelivering]
    apply List.mem_cons_self
  have hregistered : ∀ k', registered .finish k' ({ s with
      callbackCache := fun kind => AList.erase k (s.callbackCache kind) }.enter (.done k))
      = if k' = k then [] else registered .finish k' s := by
    apply registered_erase
    rfl
  constructor
  · constructor
    · rw [State.enter, Ledger.replay_concat, h.replay]
      apply Ledger.enter_done hdue howed
    · intro k' hk'
      rw [hregistered]
      split
      · next heq => rw [heq, howed]
      · next hne =>
          apply h.owed k'
          rw [hdelivering, List.mem_cons, not_or]
          exact ⟨hne, hk'⟩
    · intro k' hk'
      apply h.settled k'
      rw [hdelivering]
      apply List.mem_cons_of_mem _ hk'
    · constructor
      · intro kind k' a ha
        have ha' : (AList.erase k (s.callbackCache kind)).lookup k' = some a := ha
        rw [Dictionary.lookup_erase] at ha'
        split at ha'
        · cases ha'
        · apply h.arrays.cached kind k' a ha'
      · apply h.arrays.enumerated
      · apply h.arrays.notRaised
    · apply h.sound
  · rfl
  · rw [hregistered, if_pos rfl]
  · intro k' _ hne
    rw [hregistered, if_neg hne]
  · apply (Steady.refl s.toCore).toAdvance

theorem paid_pExecuteFinishTaskCallback {task : TaskRef} (error : Option NSError) {k : String}
    {due : List (String × List Block)} (h : Owes L s)
    (hid : (s.tasks.cell task).taskId = some k)
    (hdue : L.due = (k, registered .finish k s) :: due) :
  ∃ L', Paid k due s L' (pExecuteFinishTaskCallback E task error s)
  := by
  have hinvoked : Served { L with due := (k, []) :: due } s (enumerate
      (fun obj s =>
        tell E { kind := .finish, recipient := .callback obj, task, error }
          (s.enter (.invoke k obj)))
      (s.finishCallbackCache.lookup k) s) := by
    rw [LCFileNetService.registered] at hdue
    cases hlookup : s.finishCallbackCache.lookup k with
    | none =>
        rw [hlookup] at hdue
        have hnil : L.due = (k, []) :: due := hdue
        rw [← hnil]
        apply h.refl
    | some a =>
        rw [hlookup] at hdue
        obtain ⟨L₁, hpush⟩ := Served.push h (h.arrays.cached .finish k a hlookup)
        obtain ⟨L₂, hinvoke⟩ := kept_invokeAll hE
          (fun obj => { kind := .finish, recipient := .callback obj, task, error }) hpush.owes
          (hpush.due.trans hdue)
        obtain ⟨L₃, hpop⟩ := Served.pop hinvoke.owes a.ref
        have hkept := hinvoke.trans hpop
        use L₃
        constructor
        · apply hkept.owes
        · apply hkept.due
        · intro k' hk'
          apply (hkept.callbacks k' hk').trans
          apply hpush.callbacks
          rw [Ledger.delivering, hdue]
          apply hk'
        · apply hpush.advance.trans hkept.advance
  generalize hs₁ : enumerate _ (s.finishCallbackCache.lookup k) s = s₁ at hinvoked
  have heq : pExecuteFinishTaskCallback E task error s = { s₁ with
      callbackCache := fun kind => AList.erase k (s₁.callbackCache kind) }.enter (.done k) := by
    unfold pExecuteFinishTaskCallback
    rw [hid, ← hs₁]
  rw [heq]
  obtain ⟨L₁, hkept⟩ := hinvoked
  have hpaid := hkept.owes.drop hkept.due
  use { L₁ with due }
  constructor
  · apply hpaid.owes
  · apply hpaid.rest
  · apply hpaid.none_registered
  · intro k' hk' hne
    rw [hpaid.callbacks k' hk' hne]
    apply hkept.callbacks
    apply List.mem_cons_of_mem _ hk'
  · apply hkept.advance.trans hpaid.advance

omit hE in
/-- What happens before the callbacks due are delivered. -/
theorem Kept.paid {L L₁ L' : Ledger String Block} {s₁ s' : State} {k : String}
    {bs : List Block} {due : List (String × List Block)} (h : Kept L s L₁ s₁)
    (hdue : L.due = (k, bs) :: due) (hpaid : Paid k due s₁ L' s') :
  Paid k due s L' s'
  := by
  constructor
  · apply hpaid.owes
  · apply hpaid.rest
  · apply hpaid.none_registered
  · intro k' hk' hne
    rw [hpaid.callbacks k' hk' hne]
    apply h.callbacks
    rw [Ledger.delivering, hdue]
    apply List.mem_cons_of_mem _ hk'
  · apply h.advance.trans hpaid.advance

omit hE in
/-- The callbacks due are still due and registered after what happened before they are
delivered. -/
theorem Kept.due_registered {L L₁ : Ledger String Block} {s₁ : State} {k : String}
    {due : List (String × List Block)} (h : Kept L s L₁ s₁)
    (hdue : L.due = (k, registered .finish k s) :: due) :
  L₁.due = (k, registered .finish k s₁) :: due
  := by
  rw [h.due, hdue, h.callbacks]
  rw [Ledger.delivering, hdue]
  apply List.mem_cons_self

omit hE in
/-- The task ids of tasks are kept. -/
theorem Kept.task {L L₁ : Ledger String Block} {s₁ : State} (h : Kept L s L₁ s₁)
    {task : TaskRef} {k : String} (hlt : task < s.tasks.next)
    (hid : (s.tasks.cell task).taskId = some k) :
  task < s₁.tasks.next ∧ (s₁.tasks.cell task).taskId = some k
  := by
  rw [h.advance.taskId task hlt]
  exact ⟨Nat.lt_of_lt_of_le hlt h.advance.tasks_le, hid⟩

theorem paid_pNotifyFinish {task : TaskRef} (error : Option NSError) {k : String}
    {due : List (String × List Block)} (h : Owes L s) (hlt : task < s.tasks.next)
    (hid : (s.tasks.cell task).taskId = some k)
    (hdue : L.due = (k, registered .finish k s) :: due) :
  ∃ L', Paid k due s L' (LCFileNetService.pNotifyFinish E task error s)
  := by
  obtain ⟨L₁, hkept⟩ := served_tellObservers hE .finish task error h
  obtain ⟨L', hpaid⟩ := paid_pExecuteFinishTaskCallback hE error hkept.owes
    (hkept.task hlt hid).2 (hkept.due_registered hdue)
  exact ⟨L', hkept.paid hdue hpaid⟩

omit hE in
/-- A delivery that is over leaves those under way as they were. -/
theorem Paid.kept {L L' : Ledger String Block} {s₁ s' : State} {k : String}
    (h : Paid k L.due s₁ L' s')
    (hregistered : ∀ k' ≠ k, registered .finish k' s₁ = registered .finish k' s)
    (hfree : k ∈ L.delivering → registered .finish k s = [])
    (hadvance : Advance (fun _ => True) s.toCore s₁.toCore) :
  Kept L s L' s'
  := by
  constructor
  · apply h.owes
  · apply h.rest
  · intro k' hk'
    by_cases hne : k' = k
    · subst hne
      rw [h.none_registered, hfree hk']
    · rw [h.callbacks k' hk' hne, hregistered k' hne]
  · apply hadvance.trans h.advance

omit hE in
/-- The finish callbacks of a task id are due when it is settled. -/
theorem Owes.settle {k : String} (h : Owes L s) (hfree : Free k s) :
  Owes { owed := Function.update L.owed k [], due := (k, registered .finish k s) :: L.due }
    (s.enter (.settle k))
  := by
  have howed := h.owed_of_free hfree
  constructor
  · rw [State.enter, Ledger.replay_concat, h.replay, ← howed]
    rfl
  · intro k' hk'
    simp only [Ledger.delivering, List.map_cons, List.mem_cons, not_or] at hk'
    apply (h.owed k' hk'.2).trans
    apply (Function.update_of_ne hk'.1 _ _).symm
  · intro k' hk'
    simp only [Ledger.delivering, List.map_cons, List.mem_cons] at hk'
    by_cases hne : k' = k
    · rw [hne]
      apply Function.update_self
    · apply (Function.update_of_ne hne _ _).trans
      apply h.settled k' (hk'.resolve_left hne)
  · exact ⟨h.arrays.cached, h.arrays.enumerated, h.arrays.notRaised⟩
  · apply h.sound

omit hE in
/-- Only one finish callback of a task id is due when nothing else is registered. -/
theorem Owes.settleOnly {k : String} {b : Option Block} {s₁ : State} (h : Owes L s)
    (howed : L.owed k = []) (htrace : s₁.trace = s.trace)
    (hregistered : ∀ k' ≠ k, registered .finish k' s₁ = registered .finish k' s)
    (harrays : ArraysMade s₁) (hsound : Sound s₁.toCore) :
  Owes { L with due := (k, b.toList) :: L.due } (s₁.enter (.settleOnly k b))
  := by
  constructor
  · rw [State.enter, Ledger.replay_concat, htrace, h.replay]
    rfl
  · intro k' hk'
    simp only [Ledger.delivering, List.map_cons, List.mem_cons, not_or] at hk'
    apply (hregistered k' hk'.1).trans (h.owed k' hk'.2)
  · intro k' hk'
    simp only [Ledger.delivering, List.map_cons, List.mem_cons] at hk'
    by_cases hne : k' = k
    · rw [hne]
      apply howed
    · apply h.settled k' (hk'.resolve_left hne)
  · exact ⟨harrays.cached, harrays.enumerated, harrays.notRaised⟩
  · apply hsound

theorem served_alreadyFinished {task : TaskRef} {k : String} (h : Owes L s) (hfree : Free k s)
    (hlt : task < s.tasks.next) (hid : (s.tasks.cell task).taskId = some k) :
  Served L s (alreadyFinished E task k s)
  := by
  obtain ⟨L', hpaid⟩ := paid_pNotifyFinish hE none (h.settle hfree) hlt hid rfl
  use L'
  apply hpaid.kept
  · intro k' _
    rfl
  · intro hk
    apply hfree
    rw [h.delivering_eq]
    apply hk
  · apply (Steady.refl s.toCore).toAdvance

/-! ### Operations -/

/-- A status change is told after moves of the core. -/
theorem served_mapCore_statusChange {f g : Core → Core} (task : TaskRef)
    (hf : Moves s.toCore (f s.toCore)) (hg : ∀ c, Moves c (g c)) (h : Owes L s) :
  Served L s (pNotifyStatusChange E task ((s.mapCore f).mapCore g))
  := by
  apply (Served.mapCore h hf).andThen
  intro L₁ h₁
  apply (Served.mapCore h₁.owes (hg _)).andThen
  intro L₂ h₂
  apply served_pNotifyStatusChange hE task h₂.owes

theorem served_pNotifyStart (o : OpRef) (h : Owes L s) :
  Served L s (pNotifyStart E o s)
  := by
  apply served_mapCore_statusChange hE _ _ _ h
  · apply Moves.setStatus
  · intro c
    apply Moves.setDb

theorem served_pNotifyStatusUpadte (o : OpRef) (status : LCFileNetTaskStatus) (h : Owes L s) :
  Served L s (pNotifyStatusUpadte E o status s)
  := by
  apply served_mapCore_statusChange hE _ _ _ h
  · apply Moves.setStatus
  · intro c
    apply Moves.setDb

theorem served_progressBlock (o : OpRef) (h : Owes L s) :
  Served L s (progressBlock E o s)
  := by
  have hsizes := Served.mapCore h (Moves.setDb (LCFileTaskDB.lcUpdateTaskFinishedSize
    (s.tasks.cell (s.taskOf o)).taskId (s.tasks.cell (s.taskOf o)).finishedSize
    (s.tasks.cell (s.taskOf o)).totalSize) s.toCore)
  have htold : Served L s (pNotifyProgressUpdate E o s) := by
    apply hsizes.andThen
    intro L₁ h₁
    apply served_pNotifyProgress hE _ h₁.owes
  apply htold.andThen
  intro L₂ h₂
  apply Served.mapCore h₂.owes
  split
  · apply Moves.pFinishOperatioin
  · apply Moves.refl

theorem served_main {o : OpRef} (h : Owes L s) (ho : o < s.ops.next) :
  Served L s (main E o s)
  := by
  have htransfer := @Moves.mainTransfer s.toCore o ho
  rw [main]
  split
  · apply Served.mapCore h
    apply htransfer.trans
    apply Moves.await
    rintro o k r ⟨⟩
  · apply (Served.mapCore h htransfer).andThen
    intro L₁ h₁
    apply served_pNotifyStart hE o h₁.owes

theorem served_start {o : OpRef} (h : Owes L s) (ho : o < s.ops.next) :
  Served L s (start E o s)
  := by
  rw [start]
  split
  · apply Served.mapCore h
    apply Moves.setOp
    · intro op
      rfl
    · intro op _
      rfl
    · intro op hcancelled
      apply hcancelled
  · have hexecuting :
        Served L s (s.mapCore (·.setOp o (fun op => { op with executing := true }))) := by
      apply Served.mapCore h
      apply Moves.setOp
      · intro op
        rfl
      · intro op hfinished
        apply hfinished
      · intro op hcancelled
        apply hcancelled
    apply hexecuting.andThen
    intro L₁ h₁
    apply served_main hE h₁.owes ho

theorem served_stopTail (status : LCFileNetTaskStatus) (o : OpRef) (h : Owes L s) :
  Served L s (stopTail E status o s)
  := by
  apply (served_pNotifyStatusUpadte hE o status h).andThen
  intro L₁ h₁
  apply Served.mapCore h₁.owes
  apply Moves.superCancel

/-- Stopping an operation serves if what follows does. -/
theorem served_stop (method : HanderMethod) (status : LCFileNetTaskStatus) {o : OpRef}
    (h : Owes L s) (ho : o < s.ops.next) {tail : Tail} {rest : State → State}
    (htail : ∀ o k r, tail = .lcCancelTask o k r →
      r < s.tasks.next ∧ (s.tasks.cell r).taskId = some k)
    (hrest : callsHander o s.toCore = false → ∀ L' s', Kept L s L' s' → Served L' s' (rest s')) :
  Served L s (stop E method status o tail rest s)
  := by
  rw [stop]
  split
  · apply Served.mapCore h
    apply (Moves.call ho method).trans
    apply Moves.await
    apply htail
  · next hcalls =>
      rw [Bool.not_eq_true] at hcalls
      split
      · apply (served_stopTail hE status o h).andThen
        apply fun L' hkept => hrest hcalls L' _ hkept
      · apply (Served.mapCore h (Moves.superCancel o s.toCore)).andThen
        apply fun L' hkept => hrest hcalls L' _ hkept

omit hE in
/-- The finish callbacks of the task id are due when its operation ends. -/
theorem owes_enterEnd {o : OpRef} {k : String} (h : Owes L s) (hid : s.taskIdOf o = some k)
    (hfree : Free k s)
    (hstored : s.taskOperationDic.lookup k = some o ∨ registered .finish k s = []) :
  ∃ L₁, Owes L₁ (enterEnd o s) ∧ L₁.due = (k, registered .finish k s) :: L.due
  := by
  rw [Core.taskIdOf] at hid
  rw [enterEnd, hid]
  simp only
  split
  · exact ⟨_, h.settle hfree, rfl⟩
  · next hother =>
      have hnil := hstored.resolve_left hother
      have howed : L.owed k = [] := (h.owed_of_free hfree).trans hnil
      use { L with due := (k, []) :: L.due }
      constructor
      · apply h.settleOnly (b := none) howed rfl (fun _ _ => rfl) h.arrays h.sound
      · rw [hnil]

/-- Recording the finish of an operation delivers the callbacks due. -/
theorem paid_pNotifyFinish_operation {o : OpRef} (error : Option NSError) {k : String}
    {due : List (String × List Block)} (h : Owes L s) (hlt : s.taskOf o < s.tasks.next)
    (hid : s.taskIdOf o = some k) (hdue : L.due = (k, registered .finish k s) :: due) :
  ∃ L', Paid k due s L' (LCFileNetOperation.pNotifyFinish E o error s)
  := by
  have hstatus : Moves s.toCore
      (if error.isSome then s.setStatus (s.taskOf o) .failed else s.toCore) := by
    split
    · apply Moves.setStatus
    · apply Moves.refl
  obtain ⟨L₁, h₁⟩ := Served.mapCore h
    (f := fun c => if error.isSome then c.setStatus (s.taskOf o) .failed else c) hstatus
  obtain ⟨L₂, h₂⟩ := Served.mapCore h₁.owes
    (f := fun c => c.setDb (LCFileTaskDB.lcSaveTask (c.tasks.cell (s.taskOf o)))) (Moves.setDb _ _)
  have hkept := h₁.trans h₂
  obtain ⟨L', hpaid⟩ := paid_pNotifyFinish hE error hkept.owes (hkept.task hlt hid).1
    (hkept.task hlt hid).2 (hkept.due_registered hdue)
  exact ⟨L', hkept.paid hdue hpaid⟩

omit hE in
theorem registered_enterEnd (o : OpRef) (s : State) (k : String) :
  registered .finish k (enterEnd o s) = registered .finish k s
  := by
  rw [enterEnd]
  split
  · split
    · rfl
    · rfl
  · rfl

/-- The end of an operation with a permitted delivery. -/
theorem served_ended {o : OpRef} (error : Option NSError) {k : String} (h : Owes L s)
    (ho : o < s.ops.next) (hid : s.taskIdOf o = some k) (hfree : Free k s)
    (hstored : s.taskOperationDic.lookup k = some o ∨ registered .finish k s = []) :
  Served L s (ended E o error s)
  := by
  obtain ⟨L₁, hend, hdue⟩ := owes_enterEnd h hid hfree hstored
  have hcore : (enterEnd o s).toCore = s.toCore := toCore_enterEnd o s
  have hcallbacks : ∀ k', registered .finish k' (enterEnd o s) = registered .finish k' s :=
    registered_enterEnd o s
  have hdue' : L₁.due = (k, registered .finish k (enterEnd o s)) :: L.due := by
    rw [hcallbacks]
    apply hdue
  obtain ⟨L₂, hstatus⟩ := served_pNotifyStatusUpadte hE o (outcome error) hend
  have howned := h.sound.owned o ho
  have hlt₁ : s.taskOf o < (enterEnd o s).tasks.next := by
    rw [hcore]
    apply howned.1
  have hid₁ : ((enterEnd o s).tasks.cell (s.taskOf o)).taskId = some k := by
    rw [hcore]
    apply hid
  obtain ⟨hlt₂, hid₂⟩ := hstatus.task hlt₁ hid₁
  have htaskOf : (pNotifyStatusUpadte E o (outcome error) (enterEnd o s)).taskOf o
      = s.taskOf o := by
    rw [hstatus.advance.task o (by rw [hcore]; exact ho), hcore]
  rw [← htaskOf] at hlt₂ hid₂
  obtain ⟨L₃, hpaid⟩ := paid_pNotifyFinish_operation hE error hstatus.owes hlt₂ hid₂
    (hstatus.due_registered hdue')
  have hfree' : k ∈ L.delivering → registered .finish k s = [] := by
    intro hk
    apply hfree
    rw [h.delivering_eq]
    apply hk
  have hadvance : Advance (fun _ => True) s.toCore (enterEnd o s).toCore := by
    rw [hcore]
    apply (Steady.refl s.toCore).toAdvance
  have hkept := (hstatus.paid hdue' hpaid).kept (fun k' _ => hcallbacks k') hfree' hadvance
  apply hkept.served
  apply Served.mapCore hkept.owes
  apply Moves.pFinishOperatioin

/-- A finish block with a permitted delivery. -/
theorem served_finishBlock (method : HanderMethod) {o : OpRef} (error : Option NSError)
    (h : Owes L s) (ho : o < s.ops.next)
    (hpermitted : method.Ends error → ∀ k ∈ s.taskIdOf o, Free k s ∧
      (s.taskOperationDic.lookup k = some o ∨ registered .finish k s = [])) :
  Served L s (finishBlock E method o error s)
  := by
  by_cases hends : method.Ends error
  · obtain ⟨k, hid⟩ := Option.isSome_iff_exists.mp (h.sound.owned o ho).2
    obtain ⟨hfree, hstored⟩ := hpermitted hends k hid
    rw [finishBlock_ends hends]
    apply served_ended hE error h ho hid hfree hstored
  · obtain heq | heq | heq := finishBlock_of_not_ends hends E o s
    · rw [heq]
      apply h.refl
    · rw [heq]
      apply Served.mapCore h (Moves.pStartUpload ho)
    · rw [heq]
      apply Served.mapCore h (Moves.pStartDownload ho)

/-! ### The service -/

theorem served_startChecked {task : TaskRef} {k : String} (h : Owes L s)
    (hlt : task < s.tasks.next) (hid : (s.tasks.cell task).taskId = some k)
    (hfree : FinishedBefore k s.toCore → Free k s) :
  Served L s (startChecked E task k s)
  := by
  rw [startChecked]
  split
  · next oldTask hcache =>
      obtain ⟨hlt', hid'⟩ := h.sound.cached k oldTask hcache
      rw [startCached]
      split
      · next hstatus =>
          apply served_alreadyFinished hE h _ hlt' hid'
          apply hfree
          left
          exact ⟨oldTask, hcache, hstatus⟩
      · apply Served.mapCore h (Moves.pAddTask hlt')
      · apply Served.mapCore h (Moves.pAddTask hlt')
      · apply Served.mapCore h (Moves.pAddTask hlt')
      · apply h.refl
  · next hcache =>
      split
      · next row hrow =>
          have hset := Moves.pSetTask_object row s.toCore
          rw [startStored]
          obtain ⟨L₁, h₁⟩ := Served.mapCore (f := fun c =>
            LCFileNetService.pSetTask s.tasks.next row.taskId (c.allocTask row.object)) h hset
          have hnext : s.tasks.next < (s.mapCore (fun c => LCFileNetService.pSetTask s.tasks.next
              row.taskId (c.allocTask row.object))).tasks.next := Nat.lt_succ_self _
          have hid' : ((s.mapCore (fun c => LCFileNetService.pSetTask s.tasks.next row.taskId
              (c.allocTask row.object))).tasks.cell s.tasks.next).taskId = some k := by
            rw [State.toCore_mapCore, LCFileNetService.pSetTask, Core.allocTask,
              Heap.cell_alloc_next]
            apply congrArg some (LCFileTaskDB.taskId_of_get hrow)
          apply h₁.served
          split
          · next hstatus =>
              apply served_alreadyFinished hE h₁.owes _ hnext hid'
              apply h₁.free h
              apply hfree
              right
              exact ⟨hcache, row, hrow, hstatus⟩
          · apply Served.mapCore h₁.owes
            apply (Moves.setStatus _ _ _).trans
            exact Moves.pAddTask hnext
          · apply Served.mapCore h₁.owes
            apply (Moves.setStatus _ _ _).trans
            exact Moves.pAddTask hnext
          · apply Served.mapCore h₁.owes (Moves.pAddTask hnext)
      · apply Served.mapCore h (Moves.startNew hlt hid)

omit hE in
/-- Saving the callbacks of a task that passes the check registers its finish callback. -/
theorem served_pSaveCallback {task : TaskRef} {k : String} (h : Owes L s)
    (hclash : NoClash task k s)
    (hnone : k ∈ delivering s → (s.tasks.cell task).finishCallback = none) :
  Served L s (enterFinish task k (pSaveCallback task k s))
  := by
  have harrays := h.arrays.pSaveCallback hclash
  have hregistered := registered_pSaveCallback task k s
  rw [h.delivering_eq] at hnone
  cases hcb : (s.tasks.cell task).finishCallback with
  | none =>
      have heq : enterFinish task k (pSaveCallback task k s) = pSaveCallback task k s := by
        rw [enterFinish, toCore_pSaveCallback, hcb]
      have hsame : ∀ k', registered .finish k' (pSaveCallback task k s)
          = registered .finish k' s := by
        intro k'
        rw [hregistered, hcb]
        split
        · next hk =>
            rw [hk]
            rfl
        · rfl
      rw [heq]
      use L
      constructor
      · constructor
        · apply h.replay
        · intro k' hk'
          rw [hsame]
          apply h.owed k' hk'
        · apply h.settled
        · apply harrays
        · apply h.sound
      · rfl
      · intro k' _
        apply hsame k'
      · apply (Steady.refl s.toCore).toAdvance
  | some b =>
      have heq : enterFinish task k (pSaveCallback task k s)
          = (pSaveCallback task k s).enter (.register k b) := by
        rw [enterFinish, toCore_pSaveCallback, hcb]
      have hk : k ∉ L.delivering := by
        intro hk
        rw [hnone hk] at hcb
        cases hcb
      rw [heq]
      use { L with owed := Function.update L.owed k (addNew b (L.owed k)) }
      constructor
      · constructor
        · rw [State.enter, Ledger.replay_concat]
          apply Option.bind_eq_some_iff.mpr
          exact ⟨L, h.replay, rfl⟩
        · intro k' hk'
          apply (hregistered k').trans
          rw [hcb]
          split
          · next hne =>
              subst hne
              rw [h.owed k' hk]
              apply (Function.update_self k' (addNew b (L.owed k')) L.owed).symm
          · next hne => exact (h.owed k' hk').trans (Function.update_of_ne hne _ _).symm
        · intro k' hk'
          have hne : k' ≠ k := by
            rintro rfl
            apply hk hk'
          apply (Function.update_of_ne hne _ _).trans (h.settled k' hk')
        · exact ⟨harrays.cached, harrays.enumerated, harrays.notRaised⟩
        · apply h.sound
      · rfl
      · intro k' hk'
        apply (hregistered k').trans
        rw [if_neg]
        rintro rfl
        apply hk hk'
      · apply (Steady.refl s.toCore).toAdvance

omit hE in
/-- Setting the MD5 of a task is not setting the status `finish`. -/
theorem finishedBefore_pSetMd5 {md5 : Bytes → String} {task : TaskRef} {k : String} {c : Core} :
  FinishedBefore k (pSetMd5 md5 task c) ↔ FinishedBefore k c
  := by
  obtain ⟨hcache, -, -, hdb⟩ := @rest_pSetMd5 md5 task c
  simp only [FinishedBefore, hcache, hdb, (status_pSetMd5 task c _).1]

/-- Starting a task with a permitted delivery. -/
theorem served_lcStartTask {task : TaskRef} {k : String} (h : Owes L s)
    (hlt : task < s.tasks.next) (hid : (s.tasks.cell task).taskId = some k)
    (hpermits : PermitsStart task k s) :
  Served L s (lcStartTask E task s)
  := by
  obtain ⟨hclash, hpermits⟩ := hpermits
  rw [lcStartTask]
  simp only [hid]
  split
  · next hcheck =>
      rw [toCore_pSaveCallback] at hcheck
      rw [if_pos hcheck] at hpermits
      apply (served_pSaveCallback h hclash hpermits.1).andThen
      intro L₁ h₁
      apply (Served.mapCore h₁.owes (@Moves.pSetMd5 E.md5 task _)).andThen
      intro L₂ h₂
      have hkept := h₁.trans h₂
      apply served_startChecked hE h₂.owes (hkept.task hlt hid).1 (hkept.task hlt hid).2
      intro hbefore
      apply hkept.free h
      apply hpermits.2
      rw [State.toCore_mapCore, toCore_enterFinish, toCore_pSaveCallback] at hbefore
      apply finishedBefore_pSetMd5.mp hbefore
  · next hcheck =>
      rw [toCore_pSaveCallback] at hcheck
      rw [if_neg hcheck] at hpermits
      have hfree : Free k s := fun _ => hpermits
      have howed : L.owed k = [] := (h.owed_of_free hfree).trans hpermits
      have hregistered := registered_pSaveCallback task k s
      have hcallbacks : registered .finish k (pSaveCallback task k s)
          = (s.tasks.cell task).finishCallback.toList := by
        rw [hregistered, if_pos rfl, hpermits]
        cases (s.tasks.cell task).finishCallback with
        | none => rfl
        | some b => rfl
      have hothers : ∀ k', k' ≠ k →
          registered .finish k' (pSaveCallback task k s) = registered .finish k' s := by
        intro k' hne
        rw [hregistered, if_neg hne]
      have hsettled : Owes
          { L with due := (k, (s.tasks.cell task).finishCallback.toList) :: L.due }
          ((pSaveCallback task k s).enter (.settleOnly k (s.tasks.cell task).finishCallback)) :=
        h.settleOnly howed rfl hothers (h.arrays.pSaveCallback hclash) h.sound
      rw [← hcallbacks] at hsettled
      obtain ⟨L', hpaid⟩ := paid_pNotifyFinish hE (some taskError) hsettled hlt hid rfl
      use L'
      apply hpaid.kept
      · intro k' hne
        apply (hregistered k').trans (if_neg hne)
      · intro _
        apply hpermits
      · apply (Steady.refl s.toCore).toAdvance

theorem served_lcResumTask {k : String} (h : Owes L s)
    (hpermits : ∀ task ∈ s.cache.lookup k, (s.tasks.cell task).status ≠ .finish →
      PermitsStart task k s) :
  Served L s (lcResumTask E k s)
  := by
  rw [lcResumTask]
  split
  · next task hcache =>
      split
      · apply h.refl
      · next hstatus =>
          obtain ⟨hlt, hid⟩ := h.sound.cached k task hcache
          apply served_lcStartTask hE h hlt hid (hpermits task hcache hstatus)
  · apply h.refl

/-- The end of a cancellation with a permitted delivery. -/
theorem served_cancelTail {k : String} {cacheTask : TaskRef} (h : Owes L s) (hfree : Free k s)
    (hlt : cacheTask < s.tasks.next) (hid : (s.tasks.cell cacheTask).taskId = some k) :
  Served L s (cancelTail E k cacheTask s)
  := by
  have hsettled := h.settle hfree
  obtain ⟨L₁, h₁⟩ := Served.mapCore hsettled
    (f := fun c => { c with taskOperationDic := c.taskOperationDic.erase k })
    (Moves.eraseOperation k s.toCore)
  obtain ⟨L₂, h₂⟩ := Served.mapCore h₁.owes
    (f := fun c => c.setDb (LCFileTaskDB.lcDeleteTaskByTaskId k)) (Moves.setDb _ _)
  obtain ⟨L₃, h₃⟩ := Served.mapCore h₂.owes
    (f := fun c => c.setStatus cacheTask .canceled) (Moves.setStatus _ _ _)
  obtain ⟨L₄, h₄⟩ := served_pNotifyStatusChange hE cacheTask h₃.owes
  have hnotified := ((h₁.trans h₂).trans h₃).trans h₄
  obtain ⟨L', hpaid⟩ := paid_pNotifyFinish hE (some canceledError) hnotified.owes
    (hnotified.task hlt hid).1 (hnotified.task hlt hid).2 (hnotified.due_registered rfl)
  have hfree' : k ∈ L.delivering → registered .finish k s = [] := by
    intro hk
    apply hfree
    rw [h.delivering_eq]
    apply hk
  have hkept := (hnotified.paid rfl hpaid).kept (s := s) (fun _ _ => rfl) hfree'
    (Steady.refl s.toCore).toAdvance
  apply hkept.served
  apply Served.mapCore hkept.owes
  apply Moves.eraseCache

theorem served_lcCancelTask {k : String} (h : Owes L s)
    (hpermitted : ∀ m, CancelReturns k m s (.cancelTask k) → Free k s) :
  Served L s (lcCancelTask E k s)
  := by
  rw [lcCancelTask]
  split
  · apply h.refl
  · next cacheTask hcache =>
      obtain ⟨hlt, hid⟩ := h.sound.cached k cacheTask hcache
      split
      · apply h.refl
      · next hstatus =>
          have hfree : (∀ o ∈ s.taskOperationDic.lookup k, callsHander o s.toCore = false) →
              Free k s := by
            intro hcalls
            apply hpermitted s.ops.next
            exact ⟨rfl, rfl, ⟨cacheTask, hcache, hstatus⟩, hcalls⟩
          split
          · next o ho =>
              apply served_stop hE .cancel .canceled h (h.sound.enqueued k o ho)
              · rintro o' k' r ⟨⟩
                exact ⟨hlt, hid⟩
              · intro hcalls L' s' hkept
                apply served_cancelTail hE hkept.owes _ (hkept.task hlt hid).1
                  (hkept.task hlt hid).2
                apply hkept.free h
                apply hfree
                intro o' ho'
                obtain rfl := Option.some.inj (ho.symm.trans ho')
                apply hcalls
          · next hnone =>
              apply served_cancelTail hE h _ hlt hid
              apply hfree
              intro o ho
              rw [hnone] at ho
              cases ho

theorem served_pauseTail (cacheTask : TaskRef) (h : Owes L s) :
  Served L s (pauseTail E cacheTask s)
  := by
  apply (Served.mapCore h (Moves.setStatus cacheTask .pause s.toCore)).andThen
  intro L₁ h₁
  apply served_pNotifyStatusChange hE cacheTask h₁.owes

theorem served_pauseTasks (taskIds : List String) (h : Owes L s) :
  Served L s (pauseTasks E taskIds s)
  := by
  induction taskIds generalizing L s with
  | nil => apply h.refl
  | cons taskId taskIds ih =>
      rw [pauseTasks]
      split
      · apply ih h
      · next cacheTask _ =>
          have hrest : ∀ L s, Owes L s →
              Served L s (pauseTasks E taskIds (pauseTail E cacheTask s)) := by
            intro L s h
            apply (served_pauseTail hE cacheTask h).andThen
            intro L₁ h₁
            apply ih h₁.owes
          split
          · apply ih h
          · split
            · next o ho =>
                apply served_stop hE .pause .pause h (h.sound.enqueued taskId o ho)
                · rintro o' k' r ⟨⟩
                · intro _ L' s' hkept
                  apply hrest L' s' hkept.owes
            · apply hrest L s h

/-- A tail that goes on with a permitted delivery. -/
theorem served_runTail {tail : Tail} (h : Owes L s)
    (htail : ∀ o k r, tail = .lcCancelTask o k r →
      Free k s ∧ r < s.tasks.next ∧ (s.tasks.cell r).taskId = some k) :
  Served L s (runTail E tail s)
  := by
  cases tail with
  | main o => apply served_pNotifyStart hE o h
  | cancel o => apply served_stopTail hE .canceled o h
  | pause o => apply served_stopTail hE .pause o h
  | lcCancelTask o k cacheTask =>
      obtain ⟨hfree, hlt, hid⟩ := htail o k cacheTask rfl
      apply (served_stopTail hE .canceled o h).andThen
      intro L₁ h₁
      apply served_cancelTail hE h₁.owes (h₁.free h hfree) (h₁.task hlt hid).1 (h₁.task hlt hid).2
  | lcPauseTask o cacheTask taskIds =>
      apply (served_stopTail hE .pause o h).andThen
      intro L₁ h₁
      apply (served_pauseTail hE cacheTask h₁.owes).andThen
      intro L₂ h₂
      apply served_pauseTasks hE taskIds h₂.owes

/-- A permitted step serves. -/
theorem served_step {e : Event} (h : Owes L s) (hrestart : e ≠ .restart)
    (hpermitted : Permitted s e) :
  Served L s (step E s e)
  := by
  cases e with
  | create t => apply Served.mapCore h (Moves.allocTask t s.toCore)
  | set task t =>
      rw [step]
      split
      · apply Served.mapCore h (Moves.setTask task (fun _ => t) s.toCore)
      · apply h.refl
  | startTask task =>
      rw [step]
      split
      · next hlt =>
          obtain ⟨k, hid, hpermits⟩ := hpermitted hlt
          apply served_lcStartTask hE h hlt hid hpermits
      · apply h.refl
  | resumTask k => apply served_lcResumTask hE h hpermitted
  | pauseTask k => apply served_pauseTasks hE [k] h
  | pauseAllTask => apply served_pauseTasks hE _ h
  | cancelTask k =>
      apply served_lcCancelTask hE h
      intro m hcancel
      apply hpermitted k m hcancel
  | getTask k => apply Served.mapCore h (Moves.lcGetTask k s.toCore)
  | updatetask key filePath => apply Served.mapCore h (Moves.setDb _ s.toCore)
  | opStart o =>
      rw [step]
      split
      · next ho =>
          have hstarted :
              Served L s (s.mapCore (·.setOp o (fun op => { op with started := true }))) := by
            apply Served.mapCore h
            apply Moves.setOp
            · intro op
              rfl
            · intro op hfinished
              apply hfinished
            · intro op hcancelled
              apply hcancelled
          apply hstarted.andThen
          intro L₁ h₁
          apply served_start hE h₁.owes ho.1
      · apply h.refl
  | opCancel o =>
      rw [step]
      split
      · next ho =>
          apply served_stop hE .cancel .canceled h ho
          · rintro o' k r ⟨⟩
          · intro _ L' s' hkept
            apply hkept.owes.refl
      · apply h.refl
  | opPause o =>
      rw [step]
      split
      · next ho =>
          apply served_stop hE .pause .pause h ho
          · rintro o' k r ⟨⟩
          · intro _ L' s' hkept
            apply hkept.owes.refl
      · apply h.refl
  | returns i =>
      rw [step]
      split
      · next tail htail =>
          obtain ⟨L₁, h₁⟩ := Served.mapCore h (Moves.dropTail i s.toCore)
          apply h₁.served
          apply served_runTail hE h₁.owes
          rintro o k r rfl
          have hsound := h.sound.cancelling o k r (List.mem_of_getElem? htail)
          refine ⟨?_, hsound⟩
          apply h₁.free h
          apply hpermitted k (o + 1) ⟨o, r, htail, rfl⟩
      · apply h.refl
  | progress r =>
      rw [step]
      split
      · apply served_progressBlock hE _ h
      · apply h.refl
  | finish r error =>
      rw [step]
      split
      · next hr =>
          obtain ⟨L₁, h₁⟩ := Served.mapCore h (Moves.answer r s.toCore)
          apply h₁.served
          apply served_finishBlock hE _ _ h₁.owes
          · apply h.sound.called r hr
          · intro hends
            apply hpermitted hr hends
      · apply h.refl
  | addHander hander =>
      rw [step]
      apply Served.mapCore h
      apply Moves.other (some hander) s.deallocated s.disk s.toCore
  | deallocHander hander =>
      rw [step]
      apply Served.mapCore h
      apply Moves.other s.hander (hander :: s.deallocated) s.disk s.toCore
  | addObserver o =>
      apply Served.of_eq h
      · rfl
      · rfl
      · exact ⟨h.arrays.cached, h.arrays.enumerated, h.arrays.notRaised⟩
      · rfl
  | find finder =>
      apply Served.of_eq h
      · rfl
      · rfl
      · exact ⟨h.arrays.cached, h.arrays.enumerated, h.arrays.notRaised⟩
      · rfl
  | edit path content =>
      rw [step]
      apply Served.mapCore h
      apply Moves.other s.hander s.deallocated (Function.update s.disk path content) s.toCore
  | restart => apply absurd rfl hrestart

end

/-! ### Callbacks that call back -/

/-- Every call of a callback, at any depth, is permitted and does not end the process. -/
def PermittedCalls (md5 : Bytes → String) (calls : Note → State → List Event) : Prop :=
  ∀ n note s, Run.Along (step (callers md5 calls n)) (fun s e => e ≠ .restart ∧ Permitted s e) s
    (calls note s)

/-- A run of permitted events without restart serves. -/
theorem served_run {E : Env} (hE : E.Serves) {L : Ledger String Block} {s : State}
    {es : List Event}
    (hes : Run.Along (step E) (fun s e => e ≠ .restart ∧ Permitted s e) s es) (h : Owes L s) :
  Served L s (Run.final (step E) s es)
  := by
  induction es generalizing L s with
  | nil => apply h.refl
  | cons e es ih =>
      obtain ⟨⟨hrestart, hpermitted⟩, hes⟩ := hes
      apply (served_step hE h hrestart hpermitted).andThen
      intro L₁ h₁
      apply ih hes h₁.owes

open Classical in
/-- Observers and callbacks that answer a note as those of `callers` do, if all calls this makes are
permitted and none ends the process, and do not answer it otherwise. -/
noncomputable def guardedCallers (md5 : Bytes → String) (calls : Note → State → List Event) :
    Nat → Env
  | 0 => quiet md5
  | n + 1 => {
      md5
      react := fun note s =>
        if Run.Along (step (guardedCallers md5 calls n))
            (fun s e => e ≠ .restart ∧ Permitted s e) s (calls note s) then
          Run.final (step (guardedCallers md5 calls n)) s (calls note s)
        else s }

/-- The event does the same if no calls but permitted ones are made. -/
def CallsPermitted (md5 : Bytes → String) (calls : Note → State → List Event) (n : Nat) (s : State)
    (e : Event) : Prop :=
  step (callers md5 calls n) s e = step (guardedCallers md5 calls n) s e

/-- Guarded callbacks keep the deliveries under way. -/
theorem serves_guardedCallers (md5 : Bytes → String) (calls : Note → State → List Event) (n : Nat) :
  (guardedCallers md5 calls n).Serves
  := by
  induction n with
  | zero =>
      intro note L s h
      apply h.refl
  | succ n ih =>
      intro note L s h
      rw [guardedCallers]
      dsimp only
      split
      · next hcalls => apply served_run ih hcalls h
      · apply h.refl

/-- Callbacks whose calls are all permitted need no guard. -/
theorem callers_eq_guardedCallers {md5 : Bytes → String} {calls : Note → State → List Event}
    (hcalls : PermittedCalls md5 calls) (n : Nat) :
  callers md5 calls n = guardedCallers md5 calls n
  := by
  induction n with
  | zero => rfl
  | succ n ih =>
      rw [callers, guardedCallers, ← ih]
      congr 1
      funext note s
      rw [if_pos (hcalls n note s)]

/-! ### Runs -/

/-- Between two events no delivery is under way. -/
def Settled (s : State) : Prop := ∃ L, Owes L s ∧ L.due = []

theorem Settled.initial (db : TaskTable) (disk : Disk String Bytes) :
  Settled (State.initial db disk)
  := by
  use Ledger.empty
  constructor
  · constructor
    · rfl
    · intro k _
      rfl
    · rintro k ⟨⟩
    · constructor
      · rintro kind k a ⟨⟩
      · rintro ref ⟨⟩
      · rfl
    · apply Sound.initial
  · rfl

theorem Settled.step {E : Env} (hE : E.Serves) {s : State} (h : Settled s) {e : Event}
    (hpermitted : Permitted s e) :
  Settled (LCCFileService.step E s e)
  := by
  by_cases hrestart : e = .restart
  · subst hrestart
    apply Settled.initial
  · obtain ⟨L, howes, hdue⟩ := h
    obtain ⟨L', hkept⟩ := served_step hE howes hrestart hpermitted
    exact ⟨L', hkept.owes, hkept.due.trans hdue⟩

/-- Between two events every finish callback has been delivered once or is owed. -/
theorem Settled.delivered {s : State} (h : Settled s) :
  Delivered s
  := by
  obtain ⟨L, howes, hdue⟩ := h
  have howed : ∀ k, registered .finish k s = L.owed k := by
    intro k
    apply howes.owed
    rw [Ledger.delivering, hdue]
    apply List.not_mem_nil
  constructor
  · apply howes.arrays.notRaised
  · exact ⟨L, howes.replay, hdue, howed⟩
  · intro k b
    have haccounts := Ledger.replay_accounts howes.replay k b
    have hnone : (Ledger.empty : Ledger String Block).outstanding k b = 0 := by
      simp [Ledger.outstanding, Ledger.empty]
    have hsome : L.outstanding k b = (registered .finish k s).count b := by
      rw [Ledger.outstanding, hdue, ← howed]
      simp
    rw [← hsome, ← haccounts, hnone, Nat.zero_add]

/-- In every state of a run of permitted events, in which the calls that callbacks make are
permitted, the finish callbacks are delivered exactly once. -/
theorem throughout_delivered_of_callsPermitted {md5 : Bytes → String}
    {calls : Note → State → List Event} {n : Nat} {db : TaskTable} {disk : Disk String Bytes}
    {es : List Event}
    (hes : Run.Along (step (callers md5 calls n))
      (fun s e => Permitted s e ∧ CallsPermitted md5 calls n s e) (State.initial db disk) es) :
  Run.Throughout (step (callers md5 calls n)) Delivered (State.initial db disk) es
  := by
  have hsettled :
      Run.Throughout (step (callers md5 calls n)) Settled (State.initial db disk) es := by
    apply Run.throughout_of_step _ (Settled.initial db disk) hes
    rintro s e h ⟨hpermitted, hcalls⟩
    rw [hcalls]
    apply h.step (serves_guardedCallers md5 calls n) hpermitted
  apply hsettled.imp
  intro s h
  apply h.delivered

/-- In every state of a run of permitted events, with callbacks whose calls are permitted, the
finish callbacks are delivered exactly once. -/
theorem throughout_delivered (md5 : Bytes → String) (calls : Note → State → List Event) (n : Nat)
    (db : TaskTable) (disk : Disk String Bytes) (es : List Event)
    (hcalls : PermittedCalls md5 calls)
    (hes : Run.Along (step (callers md5 calls n)) Permitted (State.initial db disk) es) :
  Run.Throughout (step (callers md5 calls n)) Delivered (State.initial db disk) es
  := by
  apply throughout_delivered_of_callsPermitted
  apply (Run.along_congr _ (State.initial db disk) es).mp hes
  intro s e
  rw [CallsPermitted, callers_eq_guardedCallers hcalls n, and_iff_left rfl]

/-- A finish callback that starts the second task if that is permitted. -/
def startsNext (note : Note) (s : State) : List Event :=
  if note.kind = .finish ∧
      (1 < s.tasks.next → ∃ taskId ∈ (s.tasks.cell 1).taskId, PermitsStart 1 taskId s) then
    [.startTask 1]
  else []

/-- Two downloads with finish callbacks, of which the first is started and ends. -/
def twoDownloads : List Event :=
  [.create { taskId := "j", type := .download, finishCallback := some 7 },
    .create { taskId := "k", type := .download, finishCallback := some 8 }, .addHander 0,
    .startTask 0, .opStart 0, .returns 0, .finish 0 none]

theorem permittedCalls_startsNext (md5 : Bytes → String) :
  PermittedCalls md5 startsNext
  := by
  intro n note s
  rw [startsNext]
  split
  · next h => exact ⟨⟨by simp, h.2⟩, trivial⟩
  · trivial

/-- The finish callback of the first download starts the second one. -/
theorem throughout_delivered_startsNext :
  Run.Throughout (step (callers (fun _ => "") startsNext 1)) Delivered
    (State.initial ∅ (fun _ => none)) twoDownloads
  := by
  apply throughout_delivered _ _ _ _ _ _ (permittedCalls_startsNext _)
  refine ⟨fun _ _ h => h.elim, fun _ _ h => h.elim, fun _ _ h => h.elim, ?_,
    fun _ _ h => h.elim, ?_, ?_, trivial⟩
  · intro _
    refine ⟨"j", ?_, ?_⟩ <;> decide +kernel
  · rintro k m ⟨o, r, hpending, -⟩
    have hmain := hpending.symm.trans (show _ = some (Tail.main 0) by decide +kernel)
    cases hmain
  · intro _ _ k hid
    have hj := Eq.trans (Eq.symm hid) (show _ = some "j" by decide +kernel)
    obtain rfl := Option.some.inj hj
    constructor
    · decide +kernel
    · left
      decide +kernel

/-- A finish callback that starts its task again when it has failed. -/
def retries (note : Note) (_ : State) : List Event :=
  if note.kind = .finish ∧ note.error.isSome then [.startTask note.task] else []

/-- The finish callback that retries is registered for the new attempt, but dropped. -/
theorem not_throughout_delivered_retries :
  ¬ Run.Throughout (step (callers (fun _ => "") retries 1)) Delivered
      (State.initial ∅ (fun _ => none))
      [.create { taskId := "k", type := .download, finishCallback := some 7 }, .addHander 0,
        .startTask 0, .opStart 0, .returns 0, .finish 0 (some {})]
  := by
  intro h
  obtain ⟨-, ⟨L, hreplay, -⟩, -⟩ := h.final
  have hnone : (Ledger.empty.replay (Run.final (step (callers (fun _ => "") retries 1))
      (State.initial ∅ (fun _ => none))
      [.create { taskId := "k", type := .download, finishCallback := some 7 }, .addHander 0,
        .startTask 0, .opStart 0, .returns 0, .finish 0 (some {})]).trace).isNone := by
    decide +kernel
  rw [hreplay] at hnone
  cases hnone

end LCCFileService
