import DefensiveCopy.Text.Hex

/-! # Symbol tokens

Every symbol is addressed by a token, a 32-bit word.  Its high byte names the table that the
symbol is stored in and its low 24 bits are the one-based row in that table.  Row zero is never
handed out, so a token with row zero addresses nothing.

Tables and rows are read off the word as quotient and remainder by `2 ^ 24`.  A token may carry any
word: whether it resolves is a question to a symbol table, not to the token. -/

namespace DefensiveCopy

/-- The kinds of symbols, one table for each. -/
inductive SymbolKind where
  | module
  | type
  | field
  | method
  | parameter
  | slot
  | event
  | property
  | assembly
  deriving DecidableEq, Inhabited

namespace SymbolKind

/-- All kinds, in ascending order of their table byte. -/
def all : List SymbolKind :=
  [.module, .type, .field, .method, .parameter, .slot, .event, .property, .assembly]

/-- The high byte of the tokens of a kind. -/
def tableByte : SymbolKind → Nat
  | .module => 0x00
  | .type => 0x02
  | .field => 0x04
  | .method => 0x06
  | .parameter => 0x08
  | .slot => 0x11
  | .event => 0x14
  | .property => 0x17
  | .assembly => 0x20

/-- The kind whose tokens have the given high byte. -/
def ofTableByte? : Nat → Option SymbolKind
  | 0x00 => some .module
  | 0x02 => some .type
  | 0x04 => some .field
  | 0x06 => some .method
  | 0x08 => some .parameter
  | 0x11 => some .slot
  | 0x14 => some .event
  | 0x17 => some .property
  | 0x20 => some .assembly
  | _ => none

/-- The name of a kind; a slot is a local variable. -/
def name : SymbolKind → String
  | .module => "Module"
  | .type => "Type"
  | .field => "Field"
  | .method => "Method"
  | .parameter => "Parameter"
  | .slot => "Local"
  | .event => "Event"
  | .property => "Property"
  | .assembly => "Assembly"

@[simp] theorem ofTableByte?_tableByte (kind : SymbolKind) :
    ofTableByte? kind.tableByte = some kind := by
  cases kind <;> rfl

/-- The kind that a byte stands for has that byte. -/
theorem tableByte_of_ofTableByte? {byte : Nat} {kind : SymbolKind}
    (h : ofTableByte? byte = some kind) : kind.tableByte = byte := by
  unfold ofTableByte? at h
  split at h <;> cases h <;> rfl

/-- The number of a table fits into one byte. -/
private theorem tableByte_lt (kind : SymbolKind) : kind.tableByte < 256 := by
  cases kind <;> decide

end SymbolKind

/-- A handle to a symbol: the table in the high byte, the one-based row in the low 24 bits. -/
structure Token where
  value : UInt32
  deriving DecidableEq, Inhabited

namespace Token

/-- The number of rows that a token can tell apart; the last usable row is one less. -/
def rowLimit : Nat := 0x1000000

/-- The token of a kind with the given row, of which the low 24 bits are kept. -/
def ofParts (kind : SymbolKind) (row : Nat) : Token :=
  ⟨UInt32.ofNat (kind.tableByte * rowLimit + row % rowLimit)⟩

/-- The high byte. -/
def table (token : Token) : Nat := token.value.toNat / rowLimit

/-- The low 24 bits. -/
def row (token : Token) : Nat := token.value.toNat % rowLimit

/-- The kind named by the high byte, if it names one. -/
def kind? (token : Token) : Option SymbolKind := SymbolKind.ofTableByte? token.table

/-- The token points into the table of `kind`, at a row that can be taken. -/
def is (token : Token) (kind : SymbolKind) : Bool :=
  token.kind? == some kind && token.row != 0

/-- The null token is the word zero. -/
def isNull (token : Token) : Bool := token.value == 0

/-- The zero-based place of the symbol in the table of `kind`, if the token points there. -/
def index? (token : Token) (kind : SymbolKind) : Option Nat :=
  if token.is kind then some (token.row - 1) else none

/-- The word as eight hexadecimal digits. -/
def render (token : Token) : String := "0x" ++ Text.hex 8 token.value.toNat

/-- The word together with its two parts. -/
def describe (token : Token) : String :=
  "Token(" ++ token.render ++ ", table: 0x" ++ Text.hex 2 token.table ++ ", row: " ++
    toString token.row ++ ")"

/-! ## Reading back the parts of a token -/

/-- The word of a token is its two parts side by side: the byte above the row never overflows. -/
private theorem toNat_value_ofParts (kind : SymbolKind) (row : Nat) :
    (ofParts kind row).value.toNat = kind.tableByte * rowLimit + row % rowLimit := by
  have hbyte := kind.tableByte_lt
  have hrow : row % rowLimit < rowLimit := Nat.mod_lt _ (by decide)
  simp only [ofParts, UInt32.toNat_ofNat']
  simp only [rowLimit] at *
  omega

/-- The table of a token made of two parts is the first of them. -/
@[simp] theorem table_ofParts (kind : SymbolKind) (row : Nat) :
    (ofParts kind row).table = kind.tableByte := by
  have hrow : row % rowLimit < rowLimit := Nat.mod_lt _ (by decide)
  simp only [table, toNat_value_ofParts]
  simp only [rowLimit] at *
  omega

/-- The row of a token made of two parts is the low 24 bits of the second. -/
@[simp] theorem row_ofParts (kind : SymbolKind) (row : Nat) :
    (ofParts kind row).row = row % rowLimit := by
  have hrow : row % rowLimit < rowLimit := Nat.mod_lt _ (by decide)
  simp only [Token.row, toNat_value_ofParts]
  simp only [rowLimit] at *
  omega

@[simp] theorem kind?_ofParts (kind : SymbolKind) (row : Nat) :
    (ofParts kind row).kind? = some kind := by
  simp [kind?]

/-- A token is determined by its table and its row. -/
private theorem ext_parts {left right : Token} (htable : left.table = right.table)
    (hrow : left.row = right.row) : left = right := by
  cases left
  cases right
  simp only [table, row, rowLimit] at htable hrow
  rw [mk.injEq, ← UInt32.toNat_inj]
  omega

/-- A token with a place in the table of a kind is the token made of that kind and place. -/
theorem eq_ofParts_of_index? {token : Token} {kind : SymbolKind} {i : Nat}
    (h : token.index? kind = some i) : token = ofParts kind (i + 1) := by
  simp only [index?, is, Option.ite_none_right_eq_some, Bool.and_eq_true, beq_iff_eq,
    bne_iff_ne, ne_eq, Option.some.injEq] at h
  obtain ⟨⟨hkind, hrow⟩, hi⟩ := h
  -- The row is not zero, so it is one more than the place, and it fits into 24 bits.
  have hlt : token.row < rowLimit := Nat.mod_lt _ (by decide)
  apply ext_parts
  · rw [table_ofParts, SymbolKind.tableByte_of_ofTableByte? hkind]
  · rw [row_ofParts, Nat.mod_eq_of_lt (by omega)]
    omega

/-- The token at place `i` of a table points at that place, while rows last. -/
theorem index?_ofParts {kind : SymbolKind} {i : Nat} (h : i + 1 < rowLimit) :
    (ofParts kind (i + 1)).index? kind = some i := by
  simp [index?, is, Nat.mod_eq_of_lt h]

/-- A token has a place in the tables of one kind only. -/
theorem index?_eq_none_of_ne {token : Token} {kind other : SymbolKind} {i : Nat}
    (h : token.index? kind = some i) (hne : kind ≠ other) : token.index? other = none := by
  rw [eq_ofParts_of_index? h]
  simp [index?, is, hne]

end Token

end DefensiveCopy
