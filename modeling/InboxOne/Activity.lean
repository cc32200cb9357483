import Mathlib.Data.Finset.Sort
import Mathlib.Data.List.Sort

/-!
The table of running and queued work that the activity endpoint shows. An identifier is
a fresh uuid4; here it is the number of identifiers drawn before it.
-/
namespace InboxActivity

inductive Kind where
  | operation
  | sync
  | test
  | flags
  | message
  | attachment
  | delete
  | send
  deriving DecidableEq, Repr

inductive State where
  | running
  | queued
  deriving DecidableEq, Repr

structure Item where
  label : String
  kind : Kind
  state : State
  startedAt : Nat
  accountId : Option Nat
  folderId : Option Nat
  messageId : Option Nat
  folderIds : Option (List Nat)
  parentId : Option Nat
  deriving DecidableEq, Repr

/-- The dictionary `_active` in insertion order. -/
structure Activities where
  active : List (Nat × Item)
  issued : Nat
  deriving DecidableEq, Repr

def Activities.empty : Activities := ⟨[], 0⟩

def rewriteItem (active : List (Nat × Item)) (id : Nat) (f : Item → Item) : List (Nat × Item) :=
  active.map fun (key, item) => if key = id then (key, f item) else (key, item)

/-- Work that starts running also marks its parent as running. -/
def Activities.begin (s : Activities) (item : Item) : Activities × Nat :=
  let active := match item.parentId with
    | some parent =>
        if item.state = .running then rewriteItem s.active parent fun p => { p with state := .running }
        else s.active
    | none => s.active
  (⟨active ++ [(s.issued, item)], s.issued + 1⟩, s.issued)

def Activities.update (s : Activities) (id : Nat) (f : Item → Item) : Activities :=
  { s with active := rewriteItem s.active id f }

def Activities.finish (s : Activities) (id : Nat) : Activities :=
  { s with active := s.active.filter fun entry => entry.1 ≠ id }

/-- `activity.snapshot`: the work that no other work is part of, by its start. The seconds
    since the start are left out. -/
def Activities.snapshot (s : Activities) : List (Nat × Item) :=
  let parents := s.active.map fun entry => entry.2.parentId
  (s.active.insertionSort fun a b => a.2.startedAt ≤ b.2.startedAt).filter fun entry =>
    some entry.1 ∉ parents

end InboxActivity
