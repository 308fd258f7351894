import Lox.Value
/-!
The store: frames of bindings and instances, each found by its index. A frame holds names bound
to values (a class's name is bound but unassigned while its methods are built) and the index of
its enclosing frame, which is always an earlier one; frame `0` holds the globals. A chain of
frames is searched from a frame outwards by name (`find`, `assign`), or a frame is reached by a
fixed number of enclosing links (`ancestor`, `getAt`, `assignAt`).
-/
namespace Lox

/-- Bindings of names to values, or to nothing yet. -/
abbrev Slots := List (String × Option Value)

/-- Binds a name, replacing its binding if it has one. -/
def Slots.put (name : String) (v : Option Value) : Slots → Slots
  | [] => [(name, v)]
  | (n, old) :: rest => if n == name then (name, v) :: rest else (n, old) :: Slots.put name v rest

/-- A name just bound reads back its new binding. -/
@[simp] theorem Slots.lookup_put_self (name : String) (v : Option Value) (sl : Slots) :
    (sl.put name v).lookup name = some v := by
  induction sl with
  | nil => simp [Slots.put]
  | cons p rest ih =>
    obtain ⟨n, old⟩ := p
    by_cases h : n = name
    · subst h
      simp [Slots.put]
    · have h' : (n == name) = false := by simpa using h
      have h'' : (name == n) = false := by simpa using Ne.symm h
      simp only [Slots.put, h', Bool.false_eq_true, if_false, List.lookup_cons, h'', ih]

/-- A frame: its bindings and its enclosing frame. -/
structure Frame where
  slots : Slots
  parent : Option Nat
  deriving Inhabited

/-- Fields of an instance, by name. -/
abbrev Fields := List (String × Value)

/-- Sets a field, replacing its value if it has one. -/
def Fields.put (name : String) (v : Value) : Fields → Fields
  | [] => [(name, v)]
  | (n, old) :: rest => if n == name then (name, v) :: rest else (n, old) :: Fields.put name v rest

/-- What a name finds. -/
inductive Found where
  | value (v : Value)
  /-- Bound, but not yet given a value. -/
  | unassigned
  | missing
  deriving Inhabited

/-- All frames and instances of a run. -/
structure Store where
  frames : Array Frame
  objects : Array Fields
  deriving Inhabited

namespace Store

/-- The frame of the globals. -/
def globals : Nat := 0

/-- A store holding only an empty globals frame. -/
def empty : Store := ⟨#[⟨[], none⟩], #[]⟩

/-- A new empty frame enclosed by `parent`, and its index. -/
def alloc (s : Store) (parent : Nat) : Store × Nat :=
  let i := s.frames.size
  ({ s with frames := s.frames.push ⟨[], some parent⟩ }, i)

/-- A new frame takes the next index. -/
theorem alloc_index (s : Store) (parent : Nat) : (s.alloc parent).2 = s.frames.size := rfl

/-- Allocating adds exactly one empty frame, at the end. -/
theorem alloc_frames (s : Store) (parent : Nat) :
    (s.alloc parent).1.frames = s.frames.push ⟨[], some parent⟩ := rfl

theorem alloc_frames_size (s : Store) (parent : Nat) : (s.alloc parent).1.frames.size = s.frames.size + 1 := by
  rw [alloc_frames, Array.size_push]

/-- The frame at an index after allocating: the new one at the old size, the old one elsewhere. -/
theorem frame_alloc (s : Store) (parent G : Nat) :
    (s.alloc parent).1.frames[G]? = if G = s.frames.size then some ⟨[], some parent⟩ else s.frames[G]? := by
  rw [alloc_frames, Array.getElem?_push]

/-- Binds a name in a frame, replacing its binding there. -/
def define (s : Store) (frame : Nat) (name : String) (v : Option Value) : Store :=
  { s with frames := s.frames.modify frame fun f => { f with slots := f.slots.put name v } }

/-- Binding a name adds and removes no frame. -/
@[simp] theorem define_frames_size (s : Store) (frame : Nat) (name : String) (v : Option Value) :
    (s.define frame name v).frames.size = s.frames.size := by
  simp [define]

/-- The frame at an index after a binding: the bound frame with the name put in its slots, every
other frame as before. -/
theorem frame_define (s : Store) (frame : Nat) (name : String) (v : Option Value) (G : Nat) :
    (s.define frame name v).frames[G]? =
      if frame = G then s.frames[G]?.map (fun f => { f with slots := f.slots.put name v }) else s.frames[G]? :=
  Array.getElem?_modify

/-- What a name finds in one frame alone. -/
def findIn (s : Store) (frame : Nat) (name : String) : Found :=
  match s.frames[frame]? with
  | none => .missing
  | some f =>
    match f.slots.lookup name with
    | some (some v) => .value v
    | some none => .unassigned
    | none => .missing

/-- A name just bound in an existing frame is found there with its new value. -/
theorem findIn_define_self (s : Store) (frame : Nat) (name : String) (v : Value)
    (h : frame < s.frames.size) : (s.define frame name (some v)).findIn frame name = .value v := by
  simp [define, findIn, Array.getElem_modify, h]

/-- A name is found with a value in a frame exactly when the frame's slots hold it with that value. -/
theorem findIn_eq_value {s : Store} {frame : Nat} {name : String} {v : Value} :
    s.findIn frame name = .value v ↔ ∃ fr, s.frames[frame]? = some fr ∧ fr.slots.lookup name = some (some v) := by
  unfold findIn
  constructor
  · intro found
    split at found
    · cases found
    · next fr framed =>
      split at found
      · next w bound =>
        cases found
        exact ⟨fr, framed, bound⟩
      · cases found
      · cases found
  · rintro ⟨fr, framed, bound⟩
    simp [framed, bound]

/-- Only a frame that exists binds a name. -/
theorem frame_lt_of_findIn {s : Store} {frame : Nat} {name : String} {v : Value}
    (found : s.findIn frame name = .value v) : frame < s.frames.size := by
  obtain ⟨fr, framed, -⟩ := findIn_eq_value.1 found
  exact (Array.getElem?_eq_some_iff.1 framed).1

/-- What a frame binds depends on that frame alone. -/
theorem findIn_of_frame_eq {s s' : Store} {frame : Nat} (same : s'.frames[frame]? = s.frames[frame]?) (name : String) :
    s'.findIn frame name = s.findIn frame name := by
  unfold findIn
  rw [same]

/-- The frame `distance` enclosing links above a frame. -/
def ancestor (s : Store) (frame : Nat) : Nat → Option Nat
  | 0 => some frame
  | d + 1 =>
    match s.frames[frame]? with
    | some ⟨_, some p⟩ => s.ancestor p d
    | _ => none

/-- Going up `d + 1` links is one link to the enclosing frame, then `d` more. -/
theorem ancestor_succ_of {s : Store} {frame p : Nat} {fr : Frame} (hfr : s.frames[frame]? = some fr)
    (hp : fr.parent = some p) (d : Nat) : s.ancestor frame (d + 1) = s.ancestor p d := by
  obtain ⟨slots, parent⟩ := fr
  simp only at hp
  subst hp
  simp [ancestor, hfr]

/-- What a name finds in the nearest frame, from this one outwards, that binds it. -/
def find (s : Store) (frame : Nat) (name : String) : Found :=
  match s.frames[frame]? with
  | none => .missing
  | some f =>
    match f.slots.lookup name with
    | some (some v) => .value v
    | some none => .unassigned
    | none =>
      match f.parent with
      | some p => if p < frame then s.find p name else .missing
      | none => .missing
termination_by frame

/-- The nearest frame, from this one outwards, that binds a name. -/
def owner (s : Store) (frame : Nat) (name : String) : Option Nat :=
  match s.frames[frame]? with
  | none => none
  | some f =>
    match f.slots.lookup name with
    | some _ => some frame
    | none =>
      match f.parent with
      | some p => if p < frame then s.owner p name else none
      | none => none
termination_by frame

/-- Gives a value to the nearest binding of a name, from this frame outwards; `none` if no frame
binds it. -/
def assign (s : Store) (frame : Nat) (name : String) (v : Value) : Option Store :=
  (s.owner frame name).map fun f => s.define f name (some v)

/-- What a name finds in the frame `distance` links up, and there alone. -/
def getAt (s : Store) (frame distance : Nat) (name : String) : Found :=
  match s.ancestor frame distance with
  | some a => s.findIn a name
  | none => .missing

/-- Binds a name in the frame `distance` links up; `none` if there is no such frame. -/
def assignAt (s : Store) (frame distance : Nat) (name : String) (v : Value) : Option Store :=
  (s.ancestor frame distance).map fun a => s.define a name (some v)

/-- A new instance with no fields, and its reference. -/
def newObject (s : Store) : Store × Nat :=
  let r := s.objects.size
  ({ s with objects := s.objects.push [] }, r)

/-- A new instance takes the next reference. -/
theorem newObject_ref (s : Store) : s.newObject.2 = s.objects.size := rfl

/-- A new instance leaves the frames alone. -/
theorem newObject_frames (s : Store) : s.newObject.1.frames = s.frames := rfl

/-- A new instance is an empty list of fields after the old ones. -/
theorem newObject_objects (s : Store) : s.newObject.1.objects = s.objects.push [] := rfl

/-- A field of an instance. -/
def field? (s : Store) (ref : Nat) (name : String) : Option Value :=
  (s.objects[ref]?.getD []).lookup name

/-- Sets a field of an instance. -/
def setField (s : Store) (ref : Nat) (name : String) (v : Value) : Store :=
  { s with objects := s.objects.modify ref (Fields.put name v) }

end Store

end Lox
