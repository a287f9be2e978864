import DefensiveCopy.Operation.Usage

/-! # Flag words

Modifiers and uses are exchanged as words in which each flag has its bit.  Bits without a flag are
dropped on reading, and writing sets none of them, so what is written reads back as it was. -/

namespace DefensiveCopy

/-- The word with the given flags as its bits, lowest first. -/
def flagWord : List Bool → Nat
  | [] => 0
  | flag :: flags => flag.toNat + 2 * flagWord flags

/-- Each flag stands at its own bit, and there are no others. -/
private theorem testBit_flagWord (flags : List Bool) (i : Nat) :
    (flagWord flags).testBit i = flags.getD i false := by
  induction flags generalizing i with
  | nil => simp [flagWord]
  | cons flag flags ih =>
    cases i with
    | zero => cases flag <;> simp [flagWord, Nat.testBit_zero]
    | succ i =>
      -- Halving the word drops its lowest flag, and the bits above it move down by one.
      have half : (flag.toNat + 2 * flagWord flags) / 2 = flagWord flags := by
        cases flag <;> simp only [Bool.toNat_false, Bool.toNat_true] <;> omega
      rw [flagWord, Nat.testBit_succ, half, ih]
      rfl

namespace TypeModifiers

def word (modifiers : TypeModifiers) : Nat :=
  flagWord [modifiers.isReadOnly, modifiers.isRefLike, modifiers.isStatic]

def ofWord (word : Nat) : TypeModifiers where
  isReadOnly := word.testBit 0
  isRefLike := word.testBit 1
  isStatic := word.testBit 2

@[simp] theorem ofWord_word (modifiers : TypeModifiers) : ofWord modifiers.word = modifiers := by
  simp only [ofWord, word, testBit_flagWord]
  rfl

end TypeModifiers

namespace MethodModifiers

def word (modifiers : MethodModifiers) : Nat :=
  flagWord [modifiers.isStatic, modifiers.isReadOnly, modifiers.isInitOnly, modifiers.isExtension,
    modifiers.isVirtual, modifiers.isAbstract]

def ofWord (word : Nat) : MethodModifiers where
  isStatic := word.testBit 0
  isReadOnly := word.testBit 1
  isInitOnly := word.testBit 2
  isExtension := word.testBit 3
  isVirtual := word.testBit 4
  isAbstract := word.testBit 5

@[simp] theorem ofWord_word (modifiers : MethodModifiers) : ofWord modifiers.word = modifiers := by
  simp only [ofWord, word, testBit_flagWord]
  rfl

end MethodModifiers

namespace FieldModifiers

def word (modifiers : FieldModifiers) : Nat :=
  flagWord [modifiers.isStatic, modifiers.isReadOnly, modifiers.isConst]

def ofWord (word : Nat) : FieldModifiers where
  isStatic := word.testBit 0
  isReadOnly := word.testBit 1
  isConst := word.testBit 2

@[simp] theorem ofWord_word (modifiers : FieldModifiers) : ofWord modifiers.word = modifiers := by
  simp only [ofWord, word, testBit_flagWord]
  rfl

end FieldModifiers

namespace ValueUsage

def word (usage : ValueUsage) : Nat :=
  flagWord [usage.reads, usage.writes, usage.takesReference, usage.names]

def ofWord (word : Nat) : ValueUsage where
  reads := word.testBit 0
  writes := word.testBit 1
  takesReference := word.testBit 2
  names := word.testBit 3

@[simp] theorem ofWord_word (usage : ValueUsage) : ofWord usage.word = usage := by
  simp only [ofWord, word, testBit_flagWord]
  rfl

end ValueUsage

end DefensiveCopy
