import Mathlib.Data.List.Basic
import Mathlib.Data.List.Induction
import Mathlib.Data.List.Pairwise

/-!
# Rosters

A roster lists members in the order in which they were enrolled.  Enrolling a member again
does nothing, striking a member takes it off the list, and a member that perishes is never
listed again.  `Lists h l` says what the list after a history `h` is to be, in terms of the
history alone: those still living whose last entry is an enrolment, each once, in the order
of their first enrolments since they were last struck off.
-/

namespace LCCFileService

/-- An entry of the history of a roster. -/
inductive RosterEntry (α : Type) where
  | enrol (a : α)
  | strike (a : α)
  | perish (a : α)
  deriving DecidableEq

/-- The members listed, and those that have perished. -/
structure Roster (α : Type) where
  listed : List α
  gone : List α

namespace Roster

variable {α : Type}

/-! ### What a history says -/

/-- The last enrolment or striking off of the member is an enrolment. -/
def Enrolled (a : α) (h : List (RosterEntry α)) : Prop :=
  ∃ i : Nat, h[i]? = some (.enrol a) ∧ ∀ j : Nat, i < j → h[j]? ≠ some (.strike a)

/-- The `i`-th entry is the first enrolment of the member since it was last struck off. -/
structure EnrolledAt (a : α) (h : List (RosterEntry α)) (i : Nat) : Prop where
  enrols : h[i]? = some (.enrol a)
  stays : ∀ j : Nat, i < j → h[j]? ≠ some (.strike a)
  first : ∀ k < i, h[k]? = some (.enrol a) → ∃ j, k < j ∧ j < i ∧ h[j]? = some (.strike a)

/-- The member `a` was enrolled before the member `b`, each for the first time since it was last
struck off. -/
def Before (h : List (RosterEntry α)) (a b : α) : Prop :=
  ∃ i j, EnrolledAt a h i ∧ EnrolledAt b h j ∧ i < j

/-- The list holds those still living whose last entry is an enrolment, each once, in the order of
their first enrolments since they were last struck off. -/
structure Lists (h : List (RosterEntry α)) (l : List α) : Prop where
  nodup : l.Nodup
  mem_iff : ∀ a, a ∈ l ↔ RosterEntry.perish a ∉ h ∧ Enrolled a h
  ordered : l.Pairwise (Before h)

theorem EnrolledAt.lt {a : α} {h : List (RosterEntry α)} {i : Nat} (hi : EnrolledAt a h i) :
  i < h.length
  := by
  obtain ⟨hlt, -⟩ := List.getElem?_eq_some_iff.mp hi.enrols
  apply hlt

/-- There is at most one first enrolment since a member was last struck off. -/
theorem EnrolledAt.unique {a : α} {h : List (RosterEntry α)} {i j : Nat}
    (hi : EnrolledAt a h i) (hj : EnrolledAt a h j) :
  i = j
  := by
  rcases Nat.lt_trichotomy i j with hlt | heq | hlt
  · obtain ⟨k, hik, -, hk⟩ := hj.first i hlt hi.enrols
    apply absurd hk (hi.stays k hik)
  · apply heq
  · obtain ⟨k, hjk, -, hk⟩ := hi.first j hlt hj.enrols
    apply absurd hk (hj.stays k hjk)

/-- An enrolment is the last entry, or a former one that the last entry does not strike off. -/
theorem enrolled_concat {a : α} {h : List (RosterEntry α)} {e : RosterEntry α} :
  Enrolled a (h ++ [e]) ↔ e = .enrol a ∨ Enrolled a h ∧ e ≠ .strike a
  := by
  constructor
  · rintro ⟨i, hi, hstays⟩
    rcases Nat.lt_trichotomy i h.length with hlt | rfl | hlt
    · right
      constructor
      · use i
        rw [List.getElem?_append_left hlt] at hi
        use hi
        intro j hij hj
        obtain ⟨hjlt, -⟩ := List.getElem?_eq_some_iff.mp hj
        apply hstays j hij
        rw [List.getElem?_append_left hjlt]
        apply hj
      · rintro rfl
        apply hstays h.length hlt
        simp
    · left
      simpa using hi
    · rw [List.getElem?_eq_none (by simp; omega)] at hi
      cases hi
  · rintro (rfl | ⟨⟨i, hi, hstays⟩, hne⟩)
    · use h.length
      constructor
      · simp
      · intro j hj
        rw [List.getElem?_eq_none (by simp; omega)]
        simp
    · use i
      obtain ⟨hlt, -⟩ := List.getElem?_eq_some_iff.mp hi
      rw [List.getElem?_append_left hlt]
      use hi
      intro j hij
      rcases Nat.lt_trichotomy j h.length with hj | rfl | hj
      · rw [List.getElem?_append_left hj]
        apply hstays j hij
      · simpa using hne
      · rw [List.getElem?_eq_none (by simp; omega)]
        simp

/-- The first enrolment is kept by an entry that does not strike the member off. -/
theorem EnrolledAt.concat {a : α} {h : List (RosterEntry α)} {i : Nat} (hi : EnrolledAt a h i)
    {e : RosterEntry α} (he : e ≠ .strike a) :
  EnrolledAt a (h ++ [e]) i
  := by
  have hlt := hi.lt
  constructor
  · rw [List.getElem?_append_left hlt]
    apply hi.enrols
  · intro j hij
    rcases Nat.lt_trichotomy j h.length with hj | rfl | hj
    · rw [List.getElem?_append_left hj]
      apply hi.stays j hij
    · simpa using he
    · rw [List.getElem?_eq_none (by simp; omega)]
      simp
  · intro k hk henrols
    rw [List.getElem?_append_left (by omega)] at henrols
    obtain ⟨j, hkj, hji, hj⟩ := hi.first k hk henrols
    refine ⟨j, hkj, hji, ?_⟩
    rw [List.getElem?_append_left (by omega)]
    apply hj

/-- The enrolment of a member that is not enrolled is its first one. -/
theorem enrolledAt_length {a : α} {h : List (RosterEntry α)} (hnot : ¬ Enrolled a h) :
  EnrolledAt a (h ++ [.enrol a]) h.length
  := by
  constructor
  · simp
  · intro j hj
    rw [List.getElem?_eq_none (by simp; omega)]
    simp
  · intro k hk henrols
    rw [List.getElem?_append_left hk] at henrols
    by_contra hnone
    apply hnot
    use k, henrols
    intro j hkj hj
    obtain ⟨hjlt, -⟩ := List.getElem?_eq_some_iff.mp hj
    apply hnone
    use j, hkj, hjlt
    rw [List.getElem?_append_left hjlt]
    apply hj

theorem Before.concat {a b : α} {h : List (RosterEntry α)} (hab : Before h a b)
    {e : RosterEntry α} (ha : e ≠ .strike a) (hb : e ≠ .strike b) :
  Before (h ++ [e]) a b
  := by
  obtain ⟨i, j, hi, hj, hij⟩ := hab
  exact ⟨i, j, hi.concat ha, hj.concat hb, hij⟩

/-- A member that is enrolled has a first enrolment since it was last struck off. -/
theorem Enrolled.exists_at {a : α} {h : List (RosterEntry α)} (ha : Enrolled a h) :
  ∃ i, EnrolledAt a h i
  := by
  induction h using List.reverseRecOn with
  | nil =>
      obtain ⟨i, hi, -⟩ := ha
      simp at hi
  | append_singleton h e ih =>
      by_cases hbefore : Enrolled a h
      · obtain ⟨i, hi⟩ := ih hbefore
        use i
        apply hi.concat
        rcases enrolled_concat.mp ha with rfl | ⟨-, hne⟩
        · simp
        · apply hne
      · rcases enrolled_concat.mp ha with rfl | ⟨hin, -⟩
        · exact ⟨h.length, enrolledAt_length hbefore⟩
        · apply absurd hin hbefore

/-- A history says what is listed. -/
theorem Lists.unique {h : List (RosterEntry α)} {l l' : List α} (hl : Lists h l)
    (hl' : Lists h l') :
  l = l'
  := by
  have hperm : l.Perm l' := by
    rw [List.perm_ext_iff_of_nodup hl.nodup hl'.nodup]
    intro a
    rw [hl.mem_iff, hl'.mem_iff]
  apply hperm.eq_of_pairwise _ hl.ordered hl'.ordered
  rintro a b - - ⟨i, j, hi, hj, hij⟩ ⟨j', i', hj', hi', hji⟩
  have := hi.unique hi'
  have := hj.unique hj'
  omega

/-! ### The list after a history -/

variable [DecidableEq α]

/-- The roster after an entry. -/
def step (r : Roster α) : RosterEntry α → Roster α
  | .enrol a => if a ∈ r.gone ∨ a ∈ r.listed then r else { r with listed := r.listed ++ [a] }
  | .strike a => { r with listed := r.listed.erase a }
  | .perish a => ⟨r.listed.filter (· ≠ a), a :: r.gone⟩

/-- The roster after a history. -/
def run (h : List (RosterEntry α)) : Roster α := h.foldl step ⟨[], []⟩

theorem run_concat (h : List (RosterEntry α)) (e : RosterEntry α) :
  run (h ++ [e]) = (run h).step e
  := by
  rw [run, List.foldl_append]
  rfl

/-- Those that have perished are those the history says so of. -/
theorem mem_gone_run {a : α} {h : List (RosterEntry α)} :
  a ∈ (run h).gone ↔ .perish a ∈ h
  := by
  induction h using List.reverseRecOn with
  | nil => simp [run]
  | append_singleton h e ih =>
      rw [run_concat]
      cases e with
      | enrol b =>
          rw [step]
          split
          · simp [ih]
          · simp [ih]
      | strike b => simp [step, ih]
      | perish b => simp [step, ih, or_comm]

/-- Enrolling a member that has perished, or is listed, changes nothing. -/
theorem Lists.enrol_again {h : List (RosterEntry α)} {l : List α} (hl : Lists h l) {b : α}
    (hb : .perish b ∈ h ∨ b ∈ l) :
  Lists (h ++ [.enrol b]) l
  := by
  constructor
  · apply hl.nodup
  · intro a
    rw [hl.mem_iff, enrolled_concat]
    by_cases hab : a = b
    · subst hab
      rw [hl.mem_iff] at hb
      simp
      tauto
    · simp [Ne.symm hab]
  · apply hl.ordered.imp
    intro a a' hab
    apply hab.concat
    · simp
    · simp

/-- A living member that is not listed is enrolled as the last one. -/
theorem Lists.enrol {h : List (RosterEntry α)} {l : List α} (hl : Lists h l) {b : α}
    (hliving : .perish b ∉ h) (hlisted : b ∉ l) :
  Lists (h ++ [.enrol b]) (l ++ [b])
  := by
  have hnot : ¬ Enrolled b h := by
    intro hin
    apply hlisted ((hl.mem_iff b).mpr ⟨hliving, hin⟩)
  constructor
  · rw [List.nodup_append]
    simpa [hl.nodup] using fun a ha (heq : a = b) => hlisted (heq ▸ ha)
  · intro a
    rw [List.mem_append, hl.mem_iff, enrolled_concat, List.mem_singleton]
    by_cases hab : a = b
    · subst hab
      simp [hliving]
    · simp [hab, Ne.symm hab]
  · rw [List.pairwise_append]
    and_intros
    · apply hl.ordered.imp
      intro a a' hab
      apply hab.concat
      · simp
      · simp
    · apply List.pairwise_singleton
    · intro a ha b' hb'
      obtain rfl := List.mem_singleton.mp hb'
      obtain ⟨i, hi⟩ := ((hl.mem_iff a).mp ha).2.exists_at
      exact ⟨i, h.length, hi.concat (by simp), enrolledAt_length hnot, hi.lt⟩

theorem Lists.strike {h : List (RosterEntry α)} {l : List α} (hl : Lists h l) (b : α) :
  Lists (h ++ [.strike b]) (l.erase b)
  := by
  constructor
  · apply hl.nodup.erase
  · intro a
    rw [hl.nodup.mem_erase_iff, hl.mem_iff, enrolled_concat, ne_comm]
    simp
    tauto
  · apply (hl.ordered.sublist List.erase_sublist).imp_of_mem
    intro a a' ha ha' hab
    apply hab.concat
    · rintro ⟨⟩
      apply (hl.nodup.mem_erase_iff.mp ha).1 rfl
    · rintro ⟨⟩
      apply (hl.nodup.mem_erase_iff.mp ha').1 rfl

theorem Lists.perish {h : List (RosterEntry α)} {l : List α} (hl : Lists h l) (b : α) :
  Lists (h ++ [.perish b]) (l.filter (· ≠ b))
  := by
  constructor
  · apply hl.nodup.filter
  · intro a
    rw [List.mem_filter, hl.mem_iff, enrolled_concat]
    simp
    tauto
  · apply (hl.ordered.sublist List.filter_sublist).imp
    intro a a' hab
    apply hab.concat
    · simp
    · simp

/-- What is listed after a history is what the history says. -/
theorem lists_run (h : List (RosterEntry α)) :
  Lists h (run h).listed
  := by
  induction h using List.reverseRecOn with
  | nil =>
      constructor
      · apply List.nodup_nil
      · simp [run, Enrolled]
      · apply List.Pairwise.nil
  | append_singleton h e ih =>
      rw [run_concat]
      cases e with
      | enrol b =>
          rw [step]
          split
          · next hb =>
              rw [mem_gone_run] at hb
              apply ih.enrol_again hb
          · next hb =>
              rw [not_or, mem_gone_run] at hb
              apply ih.enrol hb.1 hb.2
      | strike b => apply ih.strike b
      | perish b => apply ih.perish b

end Roster

end LCCFileService
