import LCCFileService.FileNet.LCFileNetTask
import Mathlib.Data.Set.Basic

/-!
# Equality of tasks

`isEqual:` and `hash` of `LCFileNetTask`, of task objects whose strings are objects too: two
strings may be equal in text without being the same object.  `isEqual:` asks that the task
ids are the same object, and looks at the type of its argument only.  It is a lawful equality
on a set of tasks exactly if the set has no two tasks for which one of the two matters.
-/

namespace LCCFileService

/-- A reference to a string object. -/
abbrev StringRef : Type := Nat

/-- The properties of a task object that `isEqual:` and `hash` read. -/
structure TaskObject where
  taskId : Option StringRef
  type : LCFileNetTaskType
  md5 : Option StringRef
  url : Option StringRef

/-- The task objects and the string objects, each at its reference, with what Foundation computes
the hash of a string from its text and that of an object by. -/
structure Objects where
  task : Nat → TaskObject
  text : StringRef → String
  hashOfString : String → Nat
  hashOfObject : Nat → Nat

/-- Of two types of transfers, every type of a transfer is one. -/
theorem LCFileNetTaskType.eq_or_eq {t t' t'' : LCFileNetTaskType} (h : t ≠ .unknown)
    (h' : t' ≠ .unknown) (h'' : t'' ≠ .unknown) (hne : t' ≠ t'') :
  t = t' ∨ t = t''
  := by
  cases t <;> cases t' <;> cases t'' <;> simp_all

namespace Objects

variable (m : Objects)

/-- `isEqualToString:`, of a receiver and an argument that may be nil. -/
def isEqualToString (receiver aString : Option StringRef) : Bool :=
  match receiver, aString with
  | some r, some a => m.text r = m.text a
  | _, _ => false

/-- `isEqual:`, of a receiver and an argument that is a task. -/
def isEqual (self object : Nat) : Bool :=
  if (m.task object).taskId = (m.task self).taskId then
    if (m.task object).type = .upload ∧ m.isEqualToString (m.task object).md5 (m.task self).md5 then
      true
    else if (m.task object).type = .download ∧
        m.isEqualToString (m.task object).url (m.task self).url then
      true
    else decide (self = object)
  else decide (self = object)

/-- What `%@` gives for a string. -/
def formatString (s : Option StringRef) : String := s.elim "(null)" m.text

/-- `hash` -/
def hash (self : Nat) : Nat :=
  let task := m.task self
  match task.type with
  | .upload => m.hashOfString (m.formatString task.taskId ++ m.formatString task.md5)
  | .download => m.hashOfString (m.formatString task.taskId ++ m.formatString task.url)
  | .unknown => m.hashOfObject self

/-- The task ids are equal in text. -/
def SameTaskId (a b : Nat) : Prop :=
  (m.task a).taskId.map m.text = (m.task b).taskId.map m.text

/-- The property that tells transfers of the type apart is there and equal in text. -/
def SameTransfer (type : LCFileNetTaskType) (a b : Nat) : Prop :=
  match type with
  | .upload => m.isEqualToString (m.task a).md5 (m.task b).md5
  | .download => m.isEqualToString (m.task a).url (m.task b).url
  | .unknown => False

/-- `isEqual:` and `hash` obey on the tasks the laws of an equality under which two transfers are
equal that have the same type, task id and MD5, or URL. -/
structure Lawful (S : Set Nat) : Prop where
  refl : ∀ a ∈ S, m.isEqual a a
  symm : ∀ a ∈ S, ∀ b ∈ S, m.isEqual a b → m.isEqual b a
  trans : ∀ a ∈ S, ∀ b ∈ S, ∀ c ∈ S, m.isEqual a b → m.isEqual b c → m.isEqual a c
  equal : ∀ a ∈ S, ∀ b ∈ S, (m.task a).type = (m.task b).type → m.SameTaskId a b →
    m.SameTransfer (m.task a).type a b → m.isEqual a b
  hash : ∀ a ∈ S, ∀ b ∈ S, m.isEqual a b → m.hash a = m.hash b

/-- Transfers of one type with the same MD5, or URL, have the same task id object if their task ids
are equal in text; and where tasks of different types have the same task id object, of which one is
an upload with the MD5 of the other or a download with its URL, both are transfers with the same
MD5 and the same URL, and these give the same hash. -/
structure Harmless (S : Set Nat) : Prop where
  interned : ∀ a ∈ S, ∀ b ∈ S, (m.task a).type = (m.task b).type →
    m.SameTransfer (m.task a).type a b → m.SameTaskId a b → (m.task a).taskId = (m.task b).taskId
  unmixed : ∀ a ∈ S, ∀ b ∈ S, (m.task a).type ≠ (m.task b).type →
    (m.task a).taskId = (m.task b).taskId → m.SameTransfer (m.task b).type a b →
      (m.task a).type ≠ .unknown ∧ m.SameTransfer .upload a b ∧ m.SameTransfer .download a b ∧
        m.hashOfString (m.formatString (m.task a).taskId ++ m.formatString (m.task a).md5) =
          m.hashOfString (m.formatString (m.task a).taskId ++ m.formatString (m.task a).url)

variable {m}

theorem isEqualToString_comm (r a : Option StringRef) :
  m.isEqualToString r a = m.isEqualToString a r
  := by
  cases r with
  | none =>
      cases a with
      | none => rfl
      | some a => rfl
  | some r =>
      cases a with
      | none => rfl
      | some a => apply decide_eq_decide.mpr eq_comm

/-- Strings are equal if both are there and have the same text. -/
theorem isEqualToString_iff {r a : Option StringRef} :
  m.isEqualToString r a ↔ ∃ t, r.map m.text = some t ∧ a.map m.text = some t
  := by
  cases r with
  | none => simp [isEqualToString]
  | some r =>
      cases a with
      | none => simp [isEqualToString]
      | some a => simp [isEqualToString, eq_comm]

theorem SameTransfer.symm {type : LCFileNetTaskType} {a b : Nat} (h : m.SameTransfer type a b) :
  m.SameTransfer type b a
  := by
  cases type with
  | upload => apply (isEqualToString_comm _ _).trans h
  | download => apply (isEqualToString_comm _ _).trans h
  | unknown => apply h

theorem SameTransfer.trans {type : LCFileNetTaskType} {a b c : Nat}
    (h : m.SameTransfer type a b) (h' : m.SameTransfer type b c) :
  m.SameTransfer type a c
  := by
  have htrans : ∀ r s t, m.isEqualToString r s → m.isEqualToString s t →
      m.isEqualToString r t := by
    intro r s t hrs hst
    obtain ⟨u, hr, hs⟩ := isEqualToString_iff.mp hrs
    obtain ⟨v, hs', ht⟩ := isEqualToString_iff.mp hst
    have huv := Option.some.inj (hs.symm.trans hs')
    apply isEqualToString_iff.mpr ⟨u, hr, by rw [ht, huv]⟩
  cases type with
  | upload => apply htrans _ _ _ h h'
  | download => apply htrans _ _ _ h h'
  | unknown => apply h

/-- Strings that are equal are formatted to the same text. -/
theorem formatString_eq {r a : Option StringRef} (h : m.isEqualToString r a) :
  m.formatString r = m.formatString a
  := by
  obtain ⟨t, hr, ha⟩ := isEqualToString_iff.mp h
  obtain ⟨r, rfl, rfl⟩ := Option.map_eq_some_iff.mp hr
  obtain ⟨a, rfl, htext⟩ := Option.map_eq_some_iff.mp ha
  apply htext.symm

/-- Tasks are equal if they are the same object, or have the same task id object and the argument is
a transfer with the same MD5, or URL. -/
theorem isEqual_iff {a b : Nat} :
  m.isEqual a b ↔
    a = b ∨ (m.task a).taskId = (m.task b).taskId ∧ m.SameTransfer (m.task b).type a b
  := by
  rw [isEqual]
  split
  · next hid =>
      split
      · next hupload =>
          refine iff_of_true rfl (Or.inr ⟨hid.symm, ?_⟩)
          rw [hupload.1]
          apply (isEqualToString_comm _ _).trans hupload.2
      · next hupload =>
          split
          · next hdownload =>
              refine iff_of_true rfl (Or.inr ⟨hid.symm, ?_⟩)
              rw [hdownload.1]
              apply (isEqualToString_comm _ _).trans hdownload.2
          · next hdownload =>
              rw [decide_eq_true_iff]
              refine ⟨Or.inl, ?_⟩
              rintro (heq | ⟨-, hsame⟩)
              · apply heq
              · cases htype : (m.task b).type with
                | upload =>
                    rw [htype] at hsame
                    apply absurd ⟨htype, hsame.symm⟩ hupload
                | download =>
                    rw [htype] at hsame
                    apply absurd ⟨htype, hsame.symm⟩ hdownload
                | unknown =>
                    rw [htype] at hsame
                    apply hsame.elim
  · next hid =>
      rw [decide_eq_true_iff]
      refine ⟨Or.inl, ?_⟩
      rintro (heq | ⟨hid', -⟩)
      · apply heq
      · apply absurd hid'.symm hid

/-- Only uploads and downloads are the same transfer. -/
theorem SameTransfer.ne_unknown {type : LCFileNetTaskType} {a b : Nat}
    (h : m.SameTransfer type a b) :
  type ≠ .unknown
  := by
  rintro rfl
  apply h

/-- The same transfer of two types is so in MD5 and URL. -/
theorem SameTransfer.both {type type' : LCFileNetTaskType} {a b : Nat} (hne : type ≠ type')
    (h : m.SameTransfer type a b) (h' : m.SameTransfer type' a b) :
  m.SameTransfer .upload a b ∧ m.SameTransfer .download a b
  := by
  cases type with
  | upload =>
      cases type' with
      | upload => apply absurd rfl hne
      | download => exact ⟨h, h'⟩
      | unknown => apply absurd rfl h'.ne_unknown
  | download =>
      cases type' with
      | upload => exact ⟨h', h⟩
      | download => apply absurd rfl hne
      | unknown => apply absurd rfl h'.ne_unknown
  | unknown => apply absurd rfl h.ne_unknown

/-- An upload and a download with the same task id, MD5 and URL have the same hash exactly if the
task id gives the same hash with the MD5 as with the URL. -/
theorem hash_eq_iff_of_ne {a b : Nat} (hne : (m.task a).type ≠ (m.task b).type)
    (ha : (m.task a).type ≠ .unknown) (hb : (m.task b).type ≠ .unknown)
    (hid : (m.task a).taskId = (m.task b).taskId) (hupload : m.SameTransfer .upload a b)
    (hdownload : m.SameTransfer .download a b) :
  m.hash a = m.hash b ↔
    m.hashOfString (m.formatString (m.task a).taskId ++ m.formatString (m.task a).md5) =
      m.hashOfString (m.formatString (m.task a).taskId ++ m.formatString (m.task a).url)
  := by
  rw [Objects.hash, Objects.hash, ← hid, ← formatString_eq hupload, ← formatString_eq hdownload]
  cases ha' : (m.task a).type with
  | upload =>
      cases hb' : (m.task b).type with
      | upload => apply absurd (ha'.trans hb'.symm) hne
      | download => rfl
      | unknown => apply absurd hb' hb
  | download =>
      cases hb' : (m.task b).type with
      | upload => apply eq_comm
      | download => apply absurd (ha'.trans hb'.symm) hne
      | unknown => apply absurd hb' hb
  | unknown => apply absurd ha' ha

/-! ### Equality on harmless tasks -/

section

variable {S : Set Nat}

/-- Harmless tasks that are equal have the same transfer of both their types. -/
theorem Harmless.sameTransfer (h : m.Harmless S) {a b : Nat} (ha : a ∈ S) (hb : b ∈ S)
    (hid : (m.task a).taskId = (m.task b).taskId)
    (hsame : m.SameTransfer (m.task b).type a b) :
  m.SameTransfer (m.task a).type a b
  := by
  by_cases htype : (m.task a).type = (m.task b).type
  · rwa [htype]
  · obtain ⟨hknown, hupload, hdownload, -⟩ := h.unmixed a ha b hb htype hid hsame
    cases htask : (m.task a).type with
    | upload => apply hupload
    | download => apply hdownload
    | unknown => apply absurd htask hknown

theorem Harmless.symm (h : m.Harmless S) {a b : Nat} (ha : a ∈ S) (hb : b ∈ S)
    (hab : m.isEqual a b) :
  m.isEqual b a
  := by
  rw [isEqual_iff] at hab ⊢
  obtain rfl | ⟨hid, hsame⟩ := hab
  · apply Or.inl rfl
  · apply Or.inr ⟨hid.symm, (h.sameTransfer ha hb hid hsame).symm⟩

theorem Harmless.trans (h : m.Harmless S) {a b c : Nat} (ha : a ∈ S) (hb : b ∈ S) (hc : c ∈ S)
    (hab : m.isEqual a b) (hbc : m.isEqual b c) :
  m.isEqual a c
  := by
  rw [isEqual_iff] at hab hbc ⊢
  obtain rfl | ⟨hid, hsame⟩ := hab
  · apply hbc
  obtain rfl | ⟨hid', hsame'⟩ := hbc
  · apply Or.inr ⟨hid, hsame⟩
  refine Or.inr ⟨hid.trans hid', ?_⟩
  have ha' := h.sameTransfer ha hb hid hsame
  have hb' := h.sameTransfer hb hc hid' hsame'
  by_cases htype : (m.task b).type = (m.task c).type
  · rw [htype] at hsame
    apply hsame.trans hsame'
  · obtain hab | hac :=
      LCFileNetTaskType.eq_or_eq ha'.ne_unknown hb'.ne_unknown hsame'.ne_unknown htype
    · -- `c` is the same transfer as `a` of the type of `a`, and so of its own
      rw [← hab] at hb'
      apply (h.sameTransfer hc ha (hid.trans hid').symm (ha'.trans hb').symm).symm
    · rw [hac] at ha'
      apply ha'.trans hsame'

theorem Harmless.hash (h : m.Harmless S) {a b : Nat} (ha : a ∈ S) (hb : b ∈ S)
    (hab : m.isEqual a b) :
  m.hash a = m.hash b
  := by
  rw [isEqual_iff] at hab
  obtain rfl | ⟨hid, hsame⟩ := hab
  · rfl
  by_cases htype : (m.task a).type = (m.task b).type
  · rw [Objects.hash, Objects.hash, htype, hid]
    cases hb' : (m.task b).type with
    | upload =>
        rw [hb'] at hsame
        rw [formatString_eq hsame]
    | download =>
        rw [hb'] at hsame
        rw [formatString_eq hsame]
    | unknown => apply absurd hb' hsame.ne_unknown
  · obtain ⟨hknown, hupload, hdownload, hhash⟩ := h.unmixed a ha b hb htype hid hsame
    apply (hash_eq_iff_of_ne htype hknown hsame.ne_unknown hid hupload hdownload).mpr hhash

theorem Harmless.lawful (h : m.Harmless S) :
  m.Lawful S
  := by
  constructor
  · exact fun a _ => isEqual_iff.mpr (Or.inl rfl)
  · exact fun a ha b hb hab => h.symm ha hb hab
  · exact fun a ha b hb c hc hab hbc => h.trans ha hb hc hab hbc
  · intro a ha b hb htype hid hsame
    have hobject := h.interned a ha b hb htype hsame hid
    rw [htype] at hsame
    apply isEqual_iff.mpr (Or.inr ⟨hobject, hsame⟩)
  · exact fun a ha b hb hab => h.hash ha hb hab

/-- Lawful equality leaves no two tasks whose task ids differ as objects only. -/
theorem Lawful.interned (h : m.Lawful S) {a b : Nat} (ha : a ∈ S) (hb : b ∈ S)
    (htype : (m.task a).type = (m.task b).type) (hsame : m.SameTransfer (m.task a).type a b)
    (hid : m.SameTaskId a b) :
  (m.task a).taskId = (m.task b).taskId
  := by
  obtain rfl | ⟨hobject, -⟩ := isEqual_iff.mp (h.equal a ha b hb htype hid hsame)
  · rfl
  · apply hobject

/-- Under a lawful equality, tasks of different types that are equal are so in MD5 and URL. -/
theorem Lawful.unmixed (h : m.Lawful S) {a b : Nat} (ha : a ∈ S) (hb : b ∈ S)
    (htype : (m.task a).type ≠ (m.task b).type) (hid : (m.task a).taskId = (m.task b).taskId)
    (hsame : m.SameTransfer (m.task b).type a b) :
  (m.task a).type ≠ .unknown ∧ m.SameTransfer .upload a b ∧ m.SameTransfer .download a b ∧
    m.hashOfString (m.formatString (m.task a).taskId ++ m.formatString (m.task a).md5) =
      m.hashOfString (m.formatString (m.task a).taskId ++ m.formatString (m.task a).url)
  := by
  have hab : m.isEqual a b := isEqual_iff.mpr (Or.inr ⟨hid, hsame⟩)
  have hsame' : m.SameTransfer (m.task a).type a b := by
    obtain rfl | ⟨-, hback⟩ := isEqual_iff.mp (h.symm a ha b hb hab)
    · apply absurd rfl htype
    · apply hback.symm
  obtain ⟨hupload, hdownload⟩ := hsame'.both htype hsame
  have hhash := h.hash a ha b hb hab
  rw [hash_eq_iff_of_ne htype hsame'.ne_unknown hsame.ne_unknown hid hupload hdownload] at hhash
  exact ⟨hsame'.ne_unknown, hupload, hdownload, hhash⟩

end

/-- `isEqual:` and `hash` are lawful on a set of tasks exactly if the tasks are harmless. -/
theorem lawful_iff_harmless (m : Objects) (S : Set Nat) :
  m.Lawful S ↔ m.Harmless S
  := by
  constructor
  · intro h
    constructor
    · exact fun a ha b hb htype hsame hid => h.interned ha hb htype hsame hid
    · exact fun a ha b hb htype hid hsame => h.unmixed ha hb htype hid hsame
  · apply Harmless.lawful

/-- Two uploads of the same MD5 whose task ids are two strings with the same text, and a download
with the MD5 and the task id of the first. -/
def threeTasks : Objects where
  task
    | 0 => { taskId := some 0, type := .upload, md5 := some 2, url := none }
    | 1 => { taskId := some 1, type := .upload, md5 := some 2, url := none }
    | _ => { taskId := some 0, type := .download, md5 := some 2, url := some 3 }
  text
    | 0 | 1 => "k"
    | 2 => "m"
    | _ => "u"
  hashOfString := String.length
  hashOfObject := id

/-- The two uploads are not equal, and the download is equal to the first upload but not the first
upload to it. -/
theorem not_lawful_threeTasks :
  ¬ threeTasks.Lawful {0, 1} ∧ ¬ threeTasks.Lawful {0, 2}
  := by
  constructor
  · intro h
    have heq := h.equal 0 (Or.inl rfl) 1 (Or.inr rfl) rfl rfl rfl
    revert heq
    decide
  · intro h
    have hback := h.symm 2 (Or.inr rfl) 0 (Or.inl rfl) rfl
    revert hback
    decide

end Objects

end LCCFileService
