import LCCFileService.FileSave.Lookup

/-!
# Reference counting

`References` is what the file store is for: which contents are referenced by which tag in
which group, which content each key names, and under which path each content was reported
to be stored.  `StoreOp.refer` is the effect of an operation on the references.  A store
is `Counted` by references when every referenced content is found by its MD5 and by the
keys that name it, and every content without a reference has left the tables and its path.

No operation ever puts a row into the tag table, so a store is counted throughout a
sequence of operations exactly when the sequence saves nothing.
-/

namespace LCCFileService

open LCFileSaveService

/-- A reference to a content by a tag in a group. -/
structure Reference where
  content : Bytes
  tag : String
  group : String
  time : Int
  deriving DecidableEq

/-- The references to contents, the contents named by keys, and the paths the contents were
reported to be stored at. -/
structure References where
  live : List Reference
  named : String → Option Bytes
  stored : List (String × Bytes)

namespace References

/-- No references. -/
def none : References := ⟨[], fun _ => Option.none, []⟩

/-- The content `c` is referenced. -/
def refers (h : References) (c : Bytes) : Prop := ∃ r ∈ h.live, r.content = c

/-- Add a reference in place of the one with its content, tag and group, and let the key
name its content. -/
def add (r : Reference) (key : String) (path : Option String) (h : References) :
    References where
  live := r :: h.live.filter
    (fun r' => ¬(r'.content = r.content ∧ r'.tag = r.tag ∧ r'.group = r.group))
  named := Function.update h.named key (some r.content)
  stored := (path.map (fun p => (p, r.content))).toList ++ h.stored

/-- Drop the references satisfying `p`. -/
def drop (p : Reference → Bool) (h : References) : References :=
  { h with live := h.live.filter (fun r => !p r) }

end References

/-- The operations of the file store; a save carries the dated directory and the clock. -/
inductive StoreOp where
  | save (saveDir : String) (now : Int) (sourcePath key tag group : Option String)
      (time : Int) (deleteSource : Bool)
  | lookup (l : Lookup)
  | deleteMd5 (md5 tag group : Option String)
  | deleteKey (key tag group : Option String)
  | deleteFilePath (filePath tag group : Option String)
  | deleteAfter (group : Option String) (time : Int)
  | deleteBefore (group : Option String) (time : Int)

namespace StoreOp

variable (P : Platform) (names : ColumnNames)

/-- The store after the operation. -/
def exec : StoreOp → Store → Store
  | .save saveDir now sourcePath key tag group time deleteSource, s =>
      (lcSaveFileFrom P names { saveDir, now } sourcePath key tag group time deleteSource s).2
  | .lookup l, s => (l.call names s).2
  | .deleteMd5 md5 tag group, s => lcDeleteFileWithMd5 names md5 tag group s
  | .deleteKey key tag group, s => lcDeleteFileWithKey names key tag group s
  | .deleteFilePath filePath tag group, s => lcDeleteFileWithFilePath names filePath tag group s
  | .deleteAfter group time, s => lcDeleteFileInGroupAfter names group time s
  | .deleteBefore group time, s => lcDeleteFileInGroupBefore names group time s

/-- The operation saves the content `c` of an existing file under a tag. -/
def Saves (s : Store) (c : Bytes) : StoreOp → Prop
  | .save _ _ sourcePath _ tag _ _ _ =>
      (∃ p, sourcePath = some p ∧ s.disk p = some c) ∧ lengthOf tag ≠ 0
  | _ => False

/-- A reference has the tag and the group. -/
def labelled (tag group : Option String) (r : Reference) : Bool :=
  some r.tag = tag ∧ some r.group = group

/-- The references after the operation, called in the store `s`. -/
def refer (s : Store) : StoreOp → References → References
  | .save saveDir now sourcePath key tag group time deleteSource, h =>
      match sourcePath.bind s.disk with
      | some c =>
          if lengthOf tag = 0 then h
          else
            let answer :=
              (lcSaveFileFrom P names { saveDir, now } sourcePath key tag group time deleteSource
                s).1
            h.add ⟨c, tag.getD "", group.getD "", if time = 0 then now else time⟩
              (key.getD (P.md5 c)) (answer.bind LCFileM.filePath)
      | none => h
  | .lookup _, h => h
  | .deleteMd5 md5 tag group, h =>
      h.drop (fun r => some (P.md5 r.content) = md5 ∧ labelled tag group r)
  | .deleteKey key tag group, h =>
      h.drop (fun r => key.bind h.named = some r.content ∧ labelled tag group r)
  | .deleteFilePath filePath tag group, h =>
      h.drop (fun r => (∃ p ∈ h.stored, some p.1 = filePath ∧ p.2 = r.content) ∧
        labelled tag group r)
  | .deleteAfter group time, h =>
      h.drop (fun r => some r.group = group ∧ r.time ≥ time)
  | .deleteBefore group time, h =>
      h.drop (fun r => some r.group = group ∧ r.time ≤ time)

/-- One operation, on the store and on the references. -/
def step (x : Store × References) (op : StoreOp) : Store × References :=
  (op.exec P names x.1, op.refer P names x.1 x.2)

end StoreOp

/-- The lookup returns a file with the content `c`. -/
def Lookup.Returns (names : ColumnNames) (l : Lookup) (s : Store) (c : Bytes) : Prop :=
  ∃ f, (l.call names s).1 = some f ∧ (l.call names s).2.disk f.filePath = some c

/-- The store counts the references: a referenced content is found by its MD5 and by the
keys naming it, and of a stored content without reference no row and no file is left. -/
structure Counted (P : Platform) (names : ColumnNames) (x : Store × References) : Prop where
  byMd5 : ∀ c, x.2.refers c → (Lookup.md5 (some (P.md5 c))).Returns names x.1 c
  byKey : ∀ k c, x.2.named k = some c → x.2.refers c → (Lookup.key (some k)).Returns names x.1 c
  gone : ∀ p c, (p, c) ∈ x.2.stored → ¬ x.2.refers c →
    (∀ r ∈ x.1.files.rows, r.md5 ≠ P.md5 c) ∧ x.1.disk p ≠ some c

namespace StoreOp

variable (P : Platform) (names : ColumnNames)

/-! ### The tag table stays empty -/

/-- Deleting from a table without rows leaves it without rows. -/
theorem rows_deleteWhere_nil {t : TagTable} (h : t.rows = []) (p : LCFileTagMRow → Bool) :
  (t.deleteWhere p).rows = []
  := by
  rw [Table.rows_deleteWhere, h]
  rfl

/-- A tag object without tag is not saved. -/
theorem lcSaveTag_untagged (writes : Bool) (md5 : Option String) (time : Int)
    (tags : TagTable) :
  (LCFileDB.lcSaveTag names writes ⟨md5, none, none, time⟩ tags).2 = tags
  := by
  cases md5 with
  | none => rfl
  | some md5 => rfl

/-- Saving a file leaves the tag table as it is. -/
theorem tags_lcSaveFileFrom (e : Surroundings) (sourcePath key tag group : Option String)
    (time : Int) (deleteSource : Bool) (s : Store) :
  (lcSaveFileFrom P names e sourcePath key tag group time deleteSource s).2.tags = s.tags
  := by
  unfold lcSaveFileFrom
  split
  · rfl
  · split
    · rfl
    · apply lcSaveTag_untagged

/-- A lookup leaves a tag table without rows as it is. -/
theorem tags_call (l : Lookup) {s : Store} (h : s.tags.rows = []) :
  (l.call names s).2.tags.rows = []
  := by
  rw [Lookup.call_eq_confirm]
  cases hfind : l.find s with
  | none =>
      rw [confirm_none]
      apply rows_deleteWhere_nil h
  | some r =>
      by_cases hfile : s.disk.has r.filePath
      · have htag : ¬ s.ReadsTag names r.md5 := by simp [Store.ReadsTag, h]
        rw [confirm_untagged hfile htag]
        apply h
      · rw [confirm_missing (by simpa using hfile)]
        apply rows_deleteWhere_nil h

/-- An operation leaves a tag table without rows as it is. -/
theorem tags_exec (op : StoreOp) {s : Store} (h : s.tags.rows = []) :
  (op.exec P names s).tags.rows = []
  := by
  cases op with
  | save saveDir now sourcePath key tag group time deleteSource =>
      rw [exec, tags_lcSaveFileFrom]
      apply h
  | lookup l => apply tags_call names l h
  | deleteMd5 md5 tag group => apply rows_deleteWhere_nil h
  | deleteKey key tag group => apply rows_deleteWhere_nil h
  | deleteFilePath filePath tag group => apply rows_deleteWhere_nil h
  | deleteAfter group time => apply rows_deleteWhere_nil h
  | deleteBefore group time => apply rows_deleteWhere_nil h

/-- Without tags, a lookup returns nothing. -/
theorem not_returns (l : Lookup) {s : Store} (h : s.tags.rows = []) (c : Bytes) :
  ¬ l.Returns names s c
  := by
  rintro ⟨f, hf, -⟩
  rw [Lookup.call_eq_confirm] at hf
  cases hfind : l.find s with
  | none =>
      rw [hfind, confirm_none] at hf
      cases hf
  | some r =>
      rw [hfind] at hf
      by_cases hfile : s.disk.has r.filePath
      · have htag : ¬ s.ReadsTag names r.md5 := by simp [Store.ReadsTag, h]
        rw [confirm_untagged hfile htag] at hf
        cases hf
      · rw [confirm_missing (by simpa using hfile)] at hf
        cases hf

/-- Without tags, a store with a referenced content is not counted. -/
theorem not_counted {x : Store × References} (h : x.1.tags.rows = []) {c : Bytes}
    (hc : x.2.refers c) :
  ¬ Counted P names x
  := by
  intro hx
  apply not_returns names _ h c (hx.byMd5 c hc)

/-! ### The references -/

/-- A save of a content under a tag references the content. -/
theorem refers_of_saves {op : StoreOp} {s : Store} {c : Bytes} (hop : op.Saves s c)
    (h : References) :
  (op.refer P names s h).refers c
  := by
  cases op with
  | save saveDir now sourcePath key tag group time deleteSource =>
      obtain ⟨⟨p, rfl, hp⟩, htag⟩ := hop
      simp only [refer, Option.bind_some, hp, htag, if_false]
      exact ⟨_, List.mem_cons_self, rfl⟩
  | lookup l => apply hop.elim
  | deleteMd5 md5 tag group => apply hop.elim
  | deleteKey key tag group => apply hop.elim
  | deleteFilePath filePath tag group => apply hop.elim
  | deleteAfter group time => apply hop.elim
  | deleteBefore group time => apply hop.elim

/-- An operation that saves nothing makes no references. -/
theorem refer_none {op : StoreOp} {s : Store} (hop : ¬ ∃ c, op.Saves s c) :
  op.refer P names s References.none = References.none
  := by
  cases op with
  | save saveDir now sourcePath key tag group time deleteSource =>
      simp only [refer]
      split
      · next c hc =>
          split
          · rfl
          · next htag =>
              obtain ⟨p, hp, hpc⟩ := Option.bind_eq_some_iff.mp hc
              apply absurd ⟨c, ⟨p, hp, hpc⟩, htag⟩ hop
      · rfl
  | lookup l => rfl
  | deleteMd5 md5 tag group => rfl
  | deleteKey key tag group => rfl
  | deleteFilePath filePath tag group => rfl
  | deleteAfter group time => rfl
  | deleteBefore group time => rfl

/-- Without references every store is counted. -/
theorem counted_none (s : Store) :
  Counted P names (s, References.none)
  := by
  constructor
  · rintro c ⟨r, hr, -⟩
    cases hr
  · rintro k c hk
    cases hk
  · rintro p c hp
    cases hp

/-- From tables without rows, the store is counted after every operation of a sequence
exactly when no operation saves anything. -/
theorem counted_iff_saves_nothing (disk : Disk String Bytes) (ops : List StoreOp) :
  Run.Throughout (step P names) (Counted P names) (⟨∅, ∅, disk⟩, References.none) ops
    ↔ Run.Along (step P names) (fun x op => ¬ ∃ c, op.Saves x.1 c)
        (⟨∅, ∅, disk⟩, References.none) ops
  := by
  have htags : (⟨∅, ∅, disk⟩ : Store).tags.rows = [] := rfl
  revert htags
  generalize (⟨∅, ∅, disk⟩ : Store) = s
  intro htags
  induction ops generalizing s with
  | nil => exact ⟨fun _ => trivial, fun _ => counted_none P names s⟩
  | cons op ops ih =>
      by_cases hop : ∃ c, op.Saves s c
      · constructor
        · rintro ⟨-, hrest⟩
          obtain ⟨c, hc⟩ := hop
          apply absurd hrest.start
            (not_counted P names (tags_exec P names op htags) (refers_of_saves P names hc _))
        · rintro ⟨hnot, -⟩
          apply absurd hop hnot
      · have hstep : step P names (s, References.none) op
            = (op.exec P names s, References.none) := by
          rw [step, refer_none P names hop]
        have hrest := ih (op.exec P names s) (tags_exec P names op htags)
        simp only [Run.Throughout, Run.Along, hstep]
        constructor
        · rintro ⟨-, h⟩
          exact ⟨hop, hrest.mp h⟩
        · rintro ⟨-, h⟩
          exact ⟨counted_none P names s, hrest.mpr h⟩

/-- A platform whose MD5 is a constant. -/
def constantPlatform : Platform where
  md5 := fun _ => "m"
  storePath := fun dir md5 source => dir ++ "/" ++ md5 ++ source

/-- After one save, the lookup by MD5 does not find the saved file. -/
theorem not_counted_save :
  ¬ Counted constantPlatform .quoted (step constantPlatform .quoted
      (⟨∅, ∅, fun p => if p = "a.txt" then some [1] else none⟩, References.none)
      (.save "/store" 1 (some "a.txt") (some "k") (some "t") (some "g") 0 false))
  := by
  apply not_counted
  · decide
  · apply refers_of_saves
    exact ⟨⟨"a.txt", rfl, rfl⟩, by decide⟩

end StoreOp

end LCCFileService
