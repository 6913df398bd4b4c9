import Mathlib.Algebra.BigOperators.Group.List.Basic
import Mathlib.Algebra.GroupWithZero.Nat
import Mathlib.Data.List.Count
import Mathlib.Logic.Function.Basic

/-!
# Exactly-once delivery

Callbacks are registered under keys.  When a key is settled, every callback registered
under it since it was last settled is due, and each is invoked once, in the order of
registration, before the delivery is done.  A delivery can also be of at most one callback,
apart from those owed.  Deliveries may be nested: the innermost goes on first.

A trace is a list of such entries.  A `Ledger` keeps what is owed under each key and what is
due in the deliveries under way, the innermost first; `Ledger.enter` gives the ledger after
an entry, if the entry is in order.  Every registration in a trace in order is accounted
for: it has been invoked once, or it is outstanding.
-/

namespace LCCFileService

namespace Delivery

/-- An entry of a trace. -/
inductive Entry (κ β : Type) where
  | register (k : κ) (b : β)
  | settle (k : κ)
  | settleOnly (k : κ) (b : Option β)
  | invoke (k : κ) (b : β)
  | done (k : κ)
  deriving DecidableEq

/-- Append a callback unless the list contains it. -/
def addNew {β : Type} [DecidableEq β] (b : β) (bs : List β) : List β :=
  if b ∈ bs then bs else bs ++ [b]

/-- What is owed under each key, and what is due in the deliveries under way. -/
structure Ledger (κ β : Type) where
  owed : κ → List β
  due : List (κ × List β)

namespace Ledger

variable {κ β : Type} [DecidableEq κ] [DecidableEq β]

/-- The ledger without debts. -/
def empty : Ledger κ β := ⟨fun _ => [], []⟩

/-- The keys of the deliveries under way. -/
def delivering (L : Ledger κ β) : List κ := L.due.map Prod.fst

/-- The ledger after an entry, if the entry is in order. -/
def enter (L : Ledger κ β) : Entry κ β → Option (Ledger κ β)
  | .register k b =>
      some { L with owed := Function.update L.owed k (addNew b (L.owed k)) }
  | .settle k =>
      some { owed := Function.update L.owed k [], due := (k, L.owed k) :: L.due }
  | .settleOnly k b => some { L with due := (k, b.toList) :: L.due }
  | .invoke k b =>
      match L.due with
      | (k', b' :: bs) :: due =>
          if k = k' ∧ b = b' then some { L with due := (k, bs) :: due } else none
      | _ => none
  | .done k =>
      match L.due with
      | (k', []) :: due => if k = k' ∧ L.owed k = [] then some { L with due } else none
      | _ => none

/-- The ledger after a trace, if all its entries are in order. -/
def replay : Ledger κ β → List (Entry κ β) → Option (Ledger κ β)
  | L, [] => some L
  | L, e :: es => (L.enter e).bind (fun L => L.replay es)

/-- A trace is replayed entry by entry. -/
theorem replay_concat (L : Ledger κ β) (es : List (Entry κ β)) (e : Entry κ β) :
  L.replay (es ++ [e]) = (L.replay es).bind (fun L => L.enter e)
  := by
  induction es generalizing L with
  | nil => simp [replay]
  | cons e' es ih =>
      rw [List.cons_append, replay, replay, Option.bind_assoc]
      congr 1
      funext L
      apply ih

/-! ### Entries in order -/

/-- The next callback due in the innermost delivery is invoked. -/
theorem enter_invoke {L : Ledger κ β} {k : κ} {b : β} {bs : List β} {due : List (κ × List β)}
    (h : L.due = (k, b :: bs) :: due) :
  L.enter (.invoke k b) = some { L with due := (k, bs) :: due }
  := by
  simp [enter, h]

/-- The innermost delivery is done when nothing is due in it, nor owed. -/
theorem enter_done {L : Ledger κ β} {k : κ} {due : List (κ × List β)}
    (hdue : L.due = (k, []) :: due) (howed : L.owed k = []) :
  L.enter (.done k) = some { L with due }
  := by
  simp [enter, hdue, howed]

/-! ### Every registration is accounted for -/

/-- How often the callback is owed and due under the key. -/
def outstanding (k : κ) (b : β) (L : Ledger κ β) : Nat :=
  (L.owed k).count b + (L.due.map (fun p => if p.1 = k then p.2.count b else 0)).sum

/-- How often the entry makes the callback owed or due. -/
def adds (k : κ) (b : β) (L : Ledger κ β) : Entry κ β → Nat
  | .register k' b' => if k' = k ∧ b' = b ∧ b ∉ L.owed k then 1 else 0
  | .settleOnly k' b' => if k' = k ∧ b' = some b then 1 else 0
  | _ => 0

/-- How often the trace makes the callback owed or due. -/
def registrations (k : κ) (b : β) : Ledger κ β → List (Entry κ β) → Nat
  | _, [] => 0
  | L, e :: es =>
      L.adds k b e + (L.enter e).elim 0 (fun L => L.registrations k b es)

/-- How many entries of the trace invoke the callback for the key. -/
def invocations (k : κ) (b : β) (es : List (Entry κ β)) : Nat := es.count (.invoke k b)

/-- A callback that is added anew is there once more. -/
theorem count_addNew (b b' : β) (bs : List β) :
  (addNew b' bs).count b = bs.count b + (if b' = b ∧ b ∉ bs then 1 else 0)
  := by
  rw [addNew]
  split
  · next hmem =>
      rw [if_neg]
      · rfl
      · rintro ⟨rfl, hnot⟩
        apply hnot hmem
  · next hnot =>
      rw [List.count_append, List.count_singleton]
      by_cases heq : b' = b
      · subst heq
        simp [hnot]
      · simp [heq]

theorem enter_accounts {L L' : Ledger κ β} {e : Entry κ β} (h : L.enter e = some L') (k : κ)
    (b : β) :
  L.outstanding k b + L.adds k b e
    = (if e = .invoke k b then 1 else 0) + L'.outstanding k b
  := by
  cases e with
  | register k' b' =>
      obtain rfl := Option.some.inj h
      simp only [outstanding, adds, Function.update_apply, reduceCtorEq, if_false, Nat.zero_add]
      by_cases hk : k = k'
      · subst hk
        rw [if_pos rfl, count_addNew]
        simp only [true_and]
        omega
      · rw [if_neg hk, if_neg (fun h => hk h.1.symm)]
        rfl
  | settle k' =>
      obtain rfl := Option.some.inj h
      simp only [outstanding, adds, Function.update_apply, reduceCtorEq, if_false, Nat.zero_add,
        List.map_cons, List.sum_cons]
      by_cases hk : k = k'
      · subst hk
        simp
      · simp [hk, Ne.symm hk]
  | settleOnly k' b' =>
      obtain rfl := Option.some.inj h
      simp only [outstanding, adds, reduceCtorEq, if_false, Nat.zero_add, List.map_cons,
        List.sum_cons]
      by_cases hk : k' = k
      · cases b' with
        | none => simp [hk]
        | some b' =>
            by_cases hb : b' = b
            · simp [hk, hb]
              omega
            · simp [hk, hb]
      · simp [hk]
  | invoke k' b' =>
      simp only [enter] at h
      split at h
      · next k₁ b₁ bs due hdue =>
          split at h
          · next heq =>
              obtain ⟨rfl, rfl⟩ := heq
              obtain rfl := Option.some.inj h
              simp only [outstanding, adds, hdue, List.map_cons, List.sum_cons,
                Entry.invoke.injEq, List.count_cons, beq_iff_eq]
              by_cases hk : k' = k
              · by_cases hb : b' = b
                · simp [hk, hb]
                  omega
                · simp [hk, hb]
              · simp [hk]
          · cases h
      · cases h
  | done k' =>
      simp only [enter] at h
      split at h
      · next k₁ due hdue =>
          split at h
          · obtain rfl := Option.some.inj h
            simp [outstanding, adds, hdue]
          · cases h
      · cases h

/-- In a trace in order every registration has been invoked once or is outstanding. -/
theorem replay_accounts {L L' : Ledger κ β} {es : List (Entry κ β)} (h : L.replay es = some L')
    (k : κ) (b : β) :
  L.outstanding k b + L.registrations k b es = invocations k b es + L'.outstanding k b
  := by
  induction es generalizing L with
  | nil =>
      obtain rfl := Option.some.inj h
      simp [registrations, invocations]
  | cons e es ih =>
      obtain ⟨L₁, henter, hreplay⟩ := Option.bind_eq_some_iff.mp h
      have he := enter_accounts henter k b
      have hes := ih hreplay
      rw [registrations, henter, Option.elim_some, invocations, List.count_cons]
      rw [invocations] at hes
      simp only [beq_iff_eq]
      omega

end Ledger

end Delivery

end LCCFileService
