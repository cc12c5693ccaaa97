import PointFree.Primitive
import PointFree.Store

/-!
Contract: the values that programs know by name from the start.

A word's place in the vocabulary is its place in the constant pool of every
program compiled against it. A word registered again keeps its place.
-/

namespace PointFree

structure Vocabulary where
  entries : Array (String × Value)

namespace Vocabulary

def empty : Vocabulary :=
  ⟨#[]⟩

def size (vocabulary : Vocabulary) : Nat :=
  vocabulary.entries.size

def values (vocabulary : Vocabulary) : Array Value :=
  vocabulary.entries.map Prod.snd

/-- The place of a word. -/
def lookup (vocabulary : Vocabulary) (name : String) : Option Nat :=
  vocabulary.entries.findIdx? fun entry => entry.1 == name

def nameAt? (vocabulary : Vocabulary) (place : Nat) : Option String :=
  vocabulary.entries[place]?.map Prod.fst

def value? (vocabulary : Vocabulary) (name : String) : Option Value :=
  (vocabulary.entries.find? fun entry => entry.1 == name).map Prod.snd

/-- Adds a word or gives it a new value, and says where it stands. -/
def register (vocabulary : Vocabulary) (name : String) (value : Value) : Vocabulary × Nat :=
  match vocabulary.lookup name with
  | some place => (⟨vocabulary.entries.setIfInBounds place (name, value)⟩, place)
  | none => (⟨vocabulary.entries.push (name, value)⟩, vocabulary.size)

/-- Every primitive under its glyph, as functions with consecutive stamps. -/
def standardFrom (stamp : Nat) : Vocabulary :=
  ⟨(Primitive.all.zipIdx.map fun entry =>
    (String.singleton entry.1.glyph,
      Value.function (.mk (stamp + entry.2) (.primitive entry.1)))).toArray⟩

/-- The standard vocabulary. Its functions are new every time. -/
def standard : StateM Store Vocabulary := fun store =>
  (standardFrom store.nextStamp,
    { store with nextStamp := store.nextStamp + Primitive.all.length })

end Vocabulary

end PointFree
