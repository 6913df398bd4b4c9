import LCCFileService.Library.Heap
import LCCFileService.Library.Roster
import LCCFileService.Library.Run

/-!
# The protocol finder

`ProtocolFinder` keeps, for each protocol, an array of weak pointers to the objects that
registered for it, in the order of their registrations.  A pointer reads `NULL` from the
moment its object is deallocated, and its slot is only given up when the array is next
accessed.  The blocks of all methods run one after another in a serial queue.

The array of a protocol, read at any time, is the roster of the calls that named the protocol.
-/

namespace LCCFileService

/-- A protocol; there is one with each name. -/
structure Protocol where
  name : String
  deriving DecidableEq

def NSStringFromProtocol (p : Protocol) : String := p.name

theorem NSStringFromProtocol_inj {p q : Protocol} :
  NSStringFromProtocol p = NSStringFromProtocol q ↔ p = q
  := by
  obtain ⟨p⟩ := p
  obtain ⟨q⟩ := q
  simp [NSStringFromProtocol]

/-! ### Weak pointer arrays -/

namespace NSPointerArray

variable {Obj : Type} [DecidableEq Obj]

/-- What a weak pointer reads when the objects `gone` have been deallocated. -/
def load (gone : List Obj) (pointer : Option Obj) : Option Obj :=
  pointer.filter (fun obj => obj ∉ gone)

omit [DecidableEq Obj] in
def addPointer (pointer : Option Obj) (objArray : List (Option Obj)) : List (Option Obj) :=
  objArray ++ [pointer]

/-- Give up the slots that read `NULL`. -/
def compact (gone : List Obj) (objArray : List (Option Obj)) : List (Option Obj) :=
  objArray.filter (fun pointer => (load gone pointer).isSome)

def allObjects (gone : List Obj) (objArray : List (Option Obj)) : List Obj :=
  objArray.filterMap (load gone)

end NSPointerArray

/-! ### The finder -/

/-- The finder, and which objects have been deallocated. -/
structure ProtocolFinder (Obj : Type) where
  objRegistrationDic : Dictionary String (List (Option Obj))
  deallocated : List Obj

namespace ProtocolFinder

open NSPointerArray

variable {Obj : Type} [DecidableEq Obj]

def defaultFinder : ProtocolFinder Obj where
  objRegistrationDic := ∅
  deallocated := []

/-- Make `objArray` the array of the protocol. -/
def setObject (objArray : List (Option Obj)) (protocol : Protocol) (s : ProtocolFinder Obj) :
    ProtocolFinder Obj :=
  { s with objRegistrationDic :=
      s.objRegistrationDic.insert (NSStringFromProtocol protocol) objArray }

def objArrayForProtocol (protocol : Protocol) (s : ProtocolFinder Obj) :
    List (Option Obj) × ProtocolFinder Obj :=
  match s.objRegistrationDic.lookup (NSStringFromProtocol protocol) with
  | some objArray =>
      let objArray := compact s.deallocated (addPointer none objArray)
      (objArray, s.setObject objArray protocol)
  | none => ([], s.setObject [] protocol)

/-- `registerObj:forProtocols:` at one of the protocols. -/
def registerObjForProtocol (obj : Obj) (s : ProtocolFinder Obj) (p : Protocol) :
    ProtocolFinder Obj :=
  let (objArray, s) := s.objArrayForProtocol p
  if (allObjects s.deallocated objArray).idxOf? obj = none then
    s.setObject (addPointer (some obj) objArray) p
  else s

def registerObj (obj : Option Obj) (protocols : List Protocol) (s : ProtocolFinder Obj) :
    ProtocolFinder Obj :=
  match obj with
  | none => s
  | some obj =>
      if protocols.isEmpty then s
      else protocols.foldl (registerObjForProtocol obj) s

/-- `removeObj:forProtocols:` at one of the protocols. -/
def removeObjForProtocol (obj : Obj) (s : ProtocolFinder Obj) (p : Protocol) :
    ProtocolFinder Obj :=
  let (objArray, s) := s.objArrayForProtocol p
  match objArray.findIdx? (fun pointer => load s.deallocated pointer = some obj) with
  | some i => s.setObject (objArray.eraseIdx i) p
  | none => s

def removeObj (obj : Option Obj) (protocols : List Protocol) (s : ProtocolFinder Obj) :
    ProtocolFinder Obj :=
  match obj with
  | none => s
  | some obj =>
      if protocols.isEmpty then s
      else protocols.foldl (removeObjForProtocol obj) s

def findObjForProtocol (protocol : Protocol) (s : ProtocolFinder Obj) :
    List Obj × ProtocolFinder Obj :=
  let (objArray, s) := s.objArrayForProtocol protocol
  (allObjects s.deallocated objArray, s)

def findLastestObjForProtocol (protocol : Protocol) (s : ProtocolFinder Obj) :
    Option Obj × ProtocolFinder Obj :=
  let (objs, s) := s.findObjForProtocol protocol
  (objs.getLast?, s)

/-- `execute:selector:run:`, where `run` changes a state `w`. -/
def execute {SEL W : Type} (respondsToSelector : Obj → SEL → Bool) (protocol : Protocol)
    (selector : SEL) (run : W → Obj → W) (w : W) (s : ProtocolFinder Obj) :
    W × ProtocolFinder Obj :=
  let (objs, s) := s.findObjForProtocol protocol
  (objs.foldl (fun w obj => if respondsToSelector obj selector then run w obj else w) w, s)

end ProtocolFinder

/-- What happens to the finder: a call whose block is run, or a deallocation. -/
inductive FinderEvent (Obj : Type) where
  | registerObj (obj : Option Obj) (protocols : List Protocol)
  | removeObj (obj : Option Obj) (protocols : List Protocol)
  | findObjForProtocol (protocol : Protocol)
  | dealloc (obj : Obj)

/-- The entries the event makes in the history of the protocol. -/
def FinderEvent.entries {Obj : Type} (p : Protocol) : FinderEvent Obj → List (RosterEntry Obj)
  | .registerObj (some obj) protocols =>
      (protocols.filter (· = p)).map (fun _ => .enrol obj)
  | .removeObj (some obj) protocols =>
      (protocols.filter (· = p)).map (fun _ => .strike obj)
  | .dealloc obj => [.perish obj]
  | _ => []

namespace ProtocolFinder

open NSPointerArray

variable {Obj : Type} [DecidableEq Obj]

/-- The finder after an event. -/
def step (s : ProtocolFinder Obj) : FinderEvent Obj → ProtocolFinder Obj
  | .registerObj obj protocols => s.registerObj obj protocols
  | .removeObj obj protocols => s.removeObj obj protocols
  | .findObjForProtocol protocol => (s.findObjForProtocol protocol).2
  | .dealloc obj => { s with deallocated := obj :: s.deallocated }

/-! ### The objects an array reads -/

section Arrays

variable {gone : List Obj} {objArray : List (Option Obj)}

theorem load_some {obj : Obj} :
  load gone (some obj) = if obj ∈ gone then none else some obj
  := by
  rw [load, Option.filter_some]
  split
  · next h => simp at h; simp [h]
  · next h => simp at h; simp [h]

/-- Giving up slots that read `NULL` keeps the objects. -/
theorem allObjects_compact :
  allObjects gone (compact gone objArray) = allObjects gone objArray
  := by
  rw [allObjects, allObjects, compact, List.filterMap_filter]
  congr
  funext pointer
  cases load gone pointer with
  | none => rfl
  | some obj => rfl

theorem allObjects_addPointer (pointer : Option Obj) :
  allObjects gone (addPointer pointer objArray) =
    allObjects gone objArray ++ (load gone pointer).toList
  := by
  rw [addPointer, allObjects, List.filterMap_append]
  cases h : load gone pointer with
  | none => simp [allObjects, h]
  | some obj => simp [allObjects, h]

/-- Removing the first slot that reads an object removes the object. -/
theorem allObjects_eraseP (obj : Obj) :
  allObjects gone (objArray.eraseP (fun pointer => load gone pointer = some obj)) =
    (allObjects gone objArray).erase obj
  := by
  induction objArray with
  | nil => rfl
  | cons pointer objArray ih =>
      cases h : load gone pointer with
      | none => simpa [allObjects, h] using ih
      | some obj' =>
          by_cases heq : obj' = obj
          · simp [allObjects, h, heq]
          · simpa [allObjects, h, heq, List.erase_cons] using ih

/-- The pointers to a deallocated object read `NULL`. -/
theorem allObjects_cons_gone (obj : Obj) :
  allObjects (obj :: gone) objArray = (allObjects gone objArray).filter (· ≠ obj)
  := by
  rw [allObjects, allObjects, List.filter_filterMap]
  congr
  funext pointer
  rw [load, load, Option.filter_filter]
  congr
  funext obj'
  simp [Bool.and_comm]

end Arrays

/-- The objects the array of the protocol reads. -/
def objects (p : Protocol) (s : ProtocolFinder Obj) : List Obj :=
  allObjects s.deallocated ((s.objRegistrationDic.lookup (NSStringFromProtocol p)).getD [])

omit [DecidableEq Obj] in
@[simp]
theorem deallocated_setObject (objArray : List (Option Obj)) (p : Protocol)
    (s : ProtocolFinder Obj) :
  (s.setObject objArray p).deallocated = s.deallocated
  := rfl

theorem objects_setObject (objArray : List (Option Obj)) (p q : Protocol)
    (s : ProtocolFinder Obj) :
  objects q (s.setObject objArray p) =
    if q = p then allObjects s.deallocated objArray else objects q s
  := by
  rw [objects, setObject, Dictionary.lookup_insert]
  simp only [NSStringFromProtocol_inj]
  split
  · rfl
  · rfl

/-- Accessing the array of a protocol reads its objects, and changes no objects. -/
theorem objArrayForProtocol_reads (p : Protocol) (s : ProtocolFinder Obj) :
  allObjects s.deallocated (s.objArrayForProtocol p).1 = objects p s ∧
    (s.objArrayForProtocol p).2.deallocated = s.deallocated ∧
    ∀ q, objects q (s.objArrayForProtocol p).2 = objects q s
  := by
  cases h : s.objRegistrationDic.lookup (NSStringFromProtocol p) with
  | some objArray =>
      have hreads : allObjects s.deallocated (compact s.deallocated (addPointer none objArray)) =
          objects p s := by
        rw [allObjects_compact, allObjects_addPointer, objects, h]
        simp [load]
      rw [objArrayForProtocol, h]
      refine ⟨hreads, rfl, ?_⟩
      intro q
      rw [objects_setObject, hreads]
      split
      · next hq => rw [hq]
      · rfl
  | none =>
      have hreads : objects p s = [] := by
        rw [objects, h]
        rfl
      rw [objArrayForProtocol, h, hreads]
      refine ⟨rfl, rfl, ?_⟩
      intro q
      rw [objects_setObject]
      split
      · next hq => rw [hq, hreads]; rfl
      · rfl

/-! ### One call -/

/-- The array of the protocol reads the roster. -/
structure Reads (p : Protocol) (s : ProtocolFinder Obj) (r : Roster Obj) : Prop where
  listed : objects p s = r.listed
  gone : s.deallocated = r.gone

theorem findObjForProtocol_eq_objects (p : Protocol) (s : ProtocolFinder Obj) :
  (s.findObjForProtocol p).1 = objects p s
  := by
  obtain ⟨hreads, hgone, -⟩ := objArrayForProtocol_reads p s
  rw [← hreads, ← hgone]
  rfl

theorem Reads.congr {p : Protocol} {s s' : ProtocolFinder Obj} {r : Roster Obj}
    (h : Reads p s r) (hobjects : objects p s' = objects p s)
    (hgone : s'.deallocated = s.deallocated) :
  Reads p s' r
  := by
  constructor
  · rw [hobjects, h.listed]
  · rw [hgone, h.gone]

/-- A lookup changes no objects. -/
theorem Reads.findObjForProtocol {p : Protocol} {s : ProtocolFinder Obj} {r : Roster Obj}
    (h : Reads p s r) (q : Protocol) :
  Reads p (s.findObjForProtocol q).2 r
  := by
  obtain ⟨-, hgone, hobjects⟩ := objArrayForProtocol_reads q s
  apply h.congr (hobjects p) hgone

/-- Changing the array of another protocol changes no objects. -/
theorem Reads.setObject {p q : Protocol} {s s' : ProtocolFinder Obj} {r : Roster Obj}
    (h : Reads p s r) (hobjects : objects p s' = objects p s)
    (hgone : s'.deallocated = s.deallocated) (hne : q ≠ p) (objArray : List (Option Obj)) :
  Reads p (s'.setObject objArray q) r
  := by
  apply h.congr
  · rw [objects_setObject, if_neg (Ne.symm hne), hobjects]
  · rw [deallocated_setObject, hgone]

/-- Registering for a protocol enrols the object there, and nowhere else. -/
theorem Reads.registerObjForProtocol {p : Protocol} {s : ProtocolFinder Obj} {r : Roster Obj}
    (h : Reads p s r) (obj : Obj) (q : Protocol) :
  Reads p (s.registerObjForProtocol obj q) (if q = p then r.step (.enrol obj) else r)
  := by
  obtain ⟨hreads, hgone, hobjects⟩ := objArrayForProtocol_reads q s
  rcases hacc : s.objArrayForProtocol q with ⟨objArray, s'⟩
  rw [hacc] at hreads hgone hobjects
  dsimp only at hreads hgone hobjects
  rw [ProtocolFinder.registerObjForProtocol, hacc]
  dsimp only
  rw [hgone, hreads]
  by_cases hq : q = p
  · subst hq
    rw [if_pos rfl, Roster.step, h.listed, ← h.gone]
    split
    · next hnone =>
        have hlisted : obj ∉ r.listed := List.idxOf?_eq_none_iff.mp hnone
        constructor
        · rw [objects_setObject, if_pos rfl, allObjects_addPointer, hgone, hreads, h.listed,
            load_some]
          split
          · next hdead => simp [hdead]
          · next hliving => simp [hliving, hlisted]
        · rw [deallocated_setObject, hgone, apply_ite Roster.gone, h.gone, ite_self]
    · next hsome =>
        have hlisted : obj ∈ r.listed := by
          by_contra hnot
          apply hsome (List.idxOf?_eq_none_iff.mpr hnot)
        rw [if_pos (Or.inr hlisted)]
        apply h.congr (hobjects q) hgone
  · rw [if_neg hq]
    split
    · apply h.setObject (hobjects p) hgone hq
    · apply h.congr (hobjects p) hgone

/-- Removing from a protocol strikes the object off there, and nowhere else. -/
theorem Reads.removeObjForProtocol {p : Protocol} {s : ProtocolFinder Obj} {r : Roster Obj}
    (h : Reads p s r) (obj : Obj) (q : Protocol) :
  Reads p (s.removeObjForProtocol obj q) (if q = p then r.step (.strike obj) else r)
  := by
  obtain ⟨hreads, hgone, hobjects⟩ := objArrayForProtocol_reads q s
  rcases hacc : s.objArrayForProtocol q with ⟨objArray, s'⟩
  rw [hacc] at hreads hgone hobjects
  dsimp only at hreads hgone hobjects
  rw [ProtocolFinder.removeObjForProtocol, hacc]
  dsimp only
  by_cases hq : q = p
  · subst hq
    have herase := @allObjects_eraseP _ _ s.deallocated objArray obj
    rw [hreads, h.listed, List.eraseP_eq_eraseIdx] at herase
    rw [if_pos rfl, Roster.step, hgone]
    cases hfound : objArray.findIdx? (fun pointer => load s.deallocated pointer = some obj) with
    | none =>
        rw [hfound] at herase
        dsimp only at herase ⊢
        constructor
        · rw [hobjects, ← hreads, herase]
        · rw [hgone, h.gone]
    | some i =>
        rw [hfound] at herase
        dsimp only at herase ⊢
        constructor
        · rw [objects_setObject, if_pos rfl, hgone, herase]
        · rw [deallocated_setObject, hgone, h.gone]
  · rw [if_neg hq]
    split
    · apply h.setObject (hobjects p) hgone hq
    · apply h.congr (hobjects p) hgone

/-- A call of a method goes through its protocols one after another. -/
theorem Reads.foldl {p : Protocol} {method : ProtocolFinder Obj → Protocol → ProtocolFinder Obj}
    {e : RosterEntry Obj}
    (hmethod : ∀ s r, Reads p s r → ∀ q, Reads p (method s q) (if q = p then r.step e else r))
    {s : ProtocolFinder Obj} {r : Roster Obj} (h : Reads p s r) (protocols : List Protocol) :
  Reads p (protocols.foldl method s)
    (((protocols.filter (· = p)).map (fun _ => e)).foldl Roster.step r)
  := by
  induction protocols generalizing s r with
  | nil => apply h
  | cons q protocols ih =>
      have hq := ih (hmethod s r h q)
      by_cases heq : q = p
      · simpa [heq] using hq
      · simpa [heq] using hq

/-- An event makes its entries in the roster of every protocol. -/
theorem Reads.step {p : Protocol} {s : ProtocolFinder Obj} {r : Roster Obj} (h : Reads p s r)
    (e : FinderEvent Obj) :
  Reads p (s.step e) ((e.entries p).foldl Roster.step r)
  := by
  cases e with
  | registerObj obj protocols =>
      cases obj with
      | none => apply h
      | some obj =>
          have hcall := h.foldl (fun s r h q => h.registerObjForProtocol obj q) protocols
          cases protocols with
          | nil => apply hcall
          | cons q protocols => apply hcall
  | removeObj obj protocols =>
      cases obj with
      | none => apply h
      | some obj =>
          have hcall := h.foldl (fun s r h q => h.removeObjForProtocol obj q) protocols
          cases protocols with
          | nil => apply hcall
          | cons q protocols => apply hcall
  | findObjForProtocol q => apply h.findObjForProtocol q
  | dealloc obj =>
      constructor
      · have hgone := @allObjects_cons_gone _ _ s.deallocated
          ((s.objRegistrationDic.lookup (NSStringFromProtocol p)).getD []) obj
        rw [← objects, h.listed] at hgone
        apply hgone
      · apply congrArg (obj :: ·) h.gone

/-! ### Whole runs -/

/-- The history of the protocol in the events. -/
def history (p : Protocol) (es : List (FinderEvent Obj)) : List (RosterEntry Obj) :=
  es.flatMap (FinderEvent.entries p)

/-- After any events the array of a protocol reads the roster of its history. -/
theorem reads_final (p : Protocol) (es : List (FinderEvent Obj)) :
  Reads p (Run.final step defaultFinder es) (Roster.run (history p es))
  := by
  induction es using List.reverseRecOn with
  | nil => constructor <;> rfl
  | append_singleton es e ih =>
      have he := ih.step e
      rw [Roster.run] at he
      rw [Run.final_append, history, List.flatMap_append, Roster.run, List.foldl_append]
      simpa [history] using he

/-- What the finder finds, for every protocol, is what the calls that named the protocol and the
deallocations say; and what an event says nothing of to a protocol does not change. -/
structure ShowsRegistry (es : List (FinderEvent Obj)) (s : ProtocolFinder Obj) : Prop where
  finds : ∀ p objs, (s.findObjForProtocol p).1 = objs ↔ Roster.Lists (history p es) objs
  latest : ∀ p, (s.findLastestObjForProtocol p).1 = (s.findObjForProtocol p).1.getLast?
  others : ∀ (e : FinderEvent Obj) (p : Protocol), e.entries p = [] →
    ((s.step e).findObjForProtocol p).1 = (s.findObjForProtocol p).1
  executes : ∀ {SEL W : Type} (respondsToSelector : Obj → SEL → Bool) (p : Protocol)
    (selector : SEL) (run : W → Obj → W) (w : W),
    (s.execute respondsToSelector p selector run w).1 =
      ((s.findObjForProtocol p).1.filter (respondsToSelector · selector)).foldl run w

/-- After any sequence of calls, deallocations and lookups the finder shows an ordered registry of
the living objects. -/
theorem showsRegistry_final (es : List (FinderEvent Obj)) :
  ShowsRegistry es (Run.final step defaultFinder es)
  := by
  constructor
  · intro p objs
    have hlists := Roster.lists_run (history p es)
    rw [findObjForProtocol_eq_objects, (reads_final p es).listed]
    constructor
    · rintro rfl
      apply hlists
    · apply hlists.unique
  · intro p
    rfl
  · intro e p he
    have hreads := reads_final p es
    have hstep := hreads.step e
    rw [he] at hstep
    rw [findObjForProtocol_eq_objects, findObjForProtocol_eq_objects, hstep.listed, hreads.listed]
    rfl
  · intro SEL W respondsToSelector p selector run w
    rw [List.foldl_filter]
    rfl

end ProtocolFinder

end LCCFileService
