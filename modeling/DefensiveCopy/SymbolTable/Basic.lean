import DefensiveCopy.Symbol.Basic

/-! # The symbol table

A symbol table holds one arena of records for each kind of symbol.  Looking up a token reads the
arena of its kind at its row; a token of another kind, with row zero or beyond the end resolves to
nothing.

The table is plain data.  Registration (`DefensiveCopy.SymbolTable.Registration`) keeps its links
in order, but records may also be edited at will, so every query has to cope with links that
resolve to nothing or run in circles.

All arenas are reached through `arena` and `setArena`, so what a lookup sees after a change is said
once for all kinds: `get?_setArena_same`, `get?_setArena_other`. -/

namespace DefensiveCopy

/-- All symbols known to an analysis, one arena for each kind. -/
structure SymbolTable where
  modules : Array ModuleSymbol := #[]
  types : Array TypeSymbol := #[]
  fields : Array FieldSymbol := #[]
  methods : Array MethodSymbol := #[]
  parameters : Array ParameterSymbol := #[]
  slots : Array SlotSymbol := #[]
  events : Array EventSymbol := #[]
  properties : Array PropertySymbol := #[]
  assemblies : Array AssemblySymbol := #[]
  deriving DecidableEq, Inhabited

/-- Why the symbol table refuses a token or a registration. -/
inductive SymbolError where
  /-- The token addresses no symbol of the expected kind. -/
  | unresolved (token : Token)
  /-- Every row of the kind is taken. -/
  | tableFull (kind : SymbolKind)
  /-- The method has a parameter for every ordinal. -/
  | tooManyParameters (method : Token)
  deriving DecidableEq

namespace SymbolError

def message : SymbolError → String
  | .unresolved token => "Invalid token - " ++ token.render
  | .tableFull kind => kind.name ++ " table is full"
  | .tooManyParameters method => "too many parameters on " ++ method.render

end SymbolError

namespace SymbolTable

/-! ## Arenas -/

/-- The records of one kind, in the order of their rows. -/
def arena (t : SymbolTable) : (kind : SymbolKind) → Array (Symbol kind)
  | .module => t.modules
  | .type => t.types
  | .field => t.fields
  | .method => t.methods
  | .parameter => t.parameters
  | .slot => t.slots
  | .event => t.events
  | .property => t.properties
  | .assembly => t.assemblies

/-- The table with the records of one kind exchanged. -/
def setArena (t : SymbolTable) : (kind : SymbolKind) → Array (Symbol kind) → SymbolTable
  | .module, records => { t with modules := records }
  | .type, records => { t with types := records }
  | .field, records => { t with fields := records }
  | .method, records => { t with methods := records }
  | .parameter, records => { t with parameters := records }
  | .slot, records => { t with slots := records }
  | .event, records => { t with events := records }
  | .property, records => { t with properties := records }
  | .assembly, records => { t with assemblies := records }

/-- The number of symbols of one kind. -/
def count (t : SymbolTable) (kind : SymbolKind) : Nat := (t.arena kind).size

/-- The number of symbols of all kinds. -/
def size (t : SymbolTable) : Nat :=
  SymbolKind.all.foldl (fun total kind => total + t.count kind) 0

@[simp] theorem arena_setArena_same (t : SymbolTable) (kind : SymbolKind)
    (records : Array (Symbol kind)) : (t.setArena kind records).arena kind = records := by
  cases kind <;> rfl

/-- Replacing the arena of one kind leaves those of the other kinds alone. -/
theorem arena_setArena_other (t : SymbolTable) {kind other : SymbolKind}
    (records : Array (Symbol kind)) (hne : kind ≠ other) :
    (t.setArena kind records).arena other = t.arena other := by
  cases kind <;> cases other <;> first | rfl | exact absurd rfl hne

/-! ## Lookup -/

/-- The symbol of the given kind that a token addresses. -/
def get? (t : SymbolTable) (kind : SymbolKind) (token : Token) : Option (Symbol kind) :=
  (token.index? kind).bind fun i => (t.arena kind)[i]?

/-- The symbol of the given kind that a token addresses, or the complaint that there is none. -/
def resolve (t : SymbolTable) (kind : SymbolKind) (token : Token) :
    Except SymbolError (Symbol kind) :=
  match t.get? kind token with
  | some symbol => .ok symbol
  | none => .error (.unresolved token)

/-- The token resolves to a symbol of the given kind. -/
def resolves (t : SymbolTable) (kind : SymbolKind) (token : Token) : Bool :=
  (t.get? kind token).isSome

def module? (t : SymbolTable) (token : Token) : Option ModuleSymbol := t.get? .module token

def type? (t : SymbolTable) (token : Token) : Option TypeSymbol := t.get? .type token

def field? (t : SymbolTable) (token : Token) : Option FieldSymbol := t.get? .field token

def method? (t : SymbolTable) (token : Token) : Option MethodSymbol := t.get? .method token

def parameter? (t : SymbolTable) (token : Token) : Option ParameterSymbol :=
  t.get? .parameter token

def slot? (t : SymbolTable) (token : Token) : Option SlotSymbol := t.get? .slot token

def event? (t : SymbolTable) (token : Token) : Option EventSymbol := t.get? .event token

def property? (t : SymbolTable) (token : Token) : Option PropertySymbol := t.get? .property token

def assembly? (t : SymbolTable) (token : Token) : Option AssemblySymbol := t.get? .assembly token

/-- The name of the symbol that a token addresses, whatever its kind. -/
def nameOf? (t : SymbolTable) (token : Token) : Option String :=
  token.kind?.bind fun kind => (t.get? kind token).map Symbol.name

/-- The attribute classes applied to the symbol that a token addresses. -/
def attributesOf (t : SymbolTable) (token : Token) : List Token :=
  ((token.kind?.bind fun kind => (t.get? kind token).map Symbol.attributes)).getD []

/-- The declared type of a variable, property or event, or the return type of a method.  A token
    into the type table stands for itself, whether it resolves or not. -/
def typeOf? (t : SymbolTable) (token : Token) : Option Token :=
  match token.kind? with
  | some .field => (t.field? token).bind (·.type)
  | some .parameter => (t.parameter? token).bind (·.type)
  | some .slot => (t.slot? token).bind (·.type)
  | some .property => (t.property? token).bind (·.type)
  | some .event => (t.event? token).bind (·.type)
  | some .method => (t.method? token).bind (·.returnType)
  | some .type => some token
  | some .module | some .assembly | none => none

/-- The token that a symbol of a kind gets when `count` symbols of it are registered, while rows
    last. -/
def tokenAfter? (kind : SymbolKind) (count : Nat) : Option Token :=
  if count + 1 < Token.rowLimit then some (.ofParts kind (count + 1)) else none

/-- The first type with the given namespace and name that is neither constructed nor a type
    parameter. -/
def findType? (t : SymbolTable) (namespaceName name : String) : Option Token :=
  (t.types.findIdx? fun type =>
    type.namespaceName == namespaceName && type.name == name && type.definition.isNone &&
      type.kind != .typeParameter).bind (tokenAfter? .type)

/-! ## Change -/

/-- The table with one more symbol at the end of the arena of its kind. -/
def push (t : SymbolTable) (kind : SymbolKind) (symbol : Symbol kind) : SymbolTable :=
  t.setArena kind ((t.arena kind).push symbol)

/-- The table with the symbol that a token addresses replaced by its image under `f`; a token that
    resolves to nothing changes nothing. -/
def modify (t : SymbolTable) (kind : SymbolKind) (token : Token) (f : Symbol kind → Symbol kind) :
    SymbolTable :=
  match token.index? kind with
  | some i => t.setArena kind ((t.arena kind).modify i f)
  | none => t

/-! ## What a lookup sees after a change -/

/-- A lookup after replacing an arena reads the new records. -/
theorem get?_setArena_same (t : SymbolTable) (kind : SymbolKind) (records : Array (Symbol kind))
    (token : Token) :
    (t.setArena kind records).get? kind token =
      (token.index? kind).bind fun i => records[i]? := by
  simp [get?]

/-- A lookup of another kind sees nothing of a replaced arena. -/
theorem get?_setArena_other (t : SymbolTable) {kind other : SymbolKind}
    (records : Array (Symbol kind)) (hne : kind ≠ other) (token : Token) :
    (t.setArena kind records).get? other token = t.get? other token := by
  simp [get?, arena_setArena_other t records hne]

/-- A lookup of another kind sees nothing of an appended symbol. -/
theorem get?_push_other (t : SymbolTable) {kind other : SymbolKind} (symbol : Symbol kind)
    (hne : kind ≠ other) (token : Token) :
    (t.push kind symbol).get? other token = t.get? other token :=
  get?_setArena_other t _ hne token

/-- A lookup after appending a symbol finds it at the next place, and what was there before at all
    others. -/
theorem get?_push_same (t : SymbolTable) (kind : SymbolKind) (symbol : Symbol kind)
    (token : Token) :
    (t.push kind symbol).get? kind token =
      if token.index? kind = some (t.count kind) then some symbol else t.get? kind token := by
  simp only [push, get?, count, arena_setArena_same]
  cases h : token.index? kind with
  | none => simp
  | some i => simp [Array.getElem?_push]

/-- A lookup of another kind sees nothing of an edited symbol. -/
theorem get?_modify_other (t : SymbolTable) {kind other : SymbolKind} (edited : Token)
    (f : Symbol kind → Symbol kind) (hne : kind ≠ other) (token : Token) :
    (t.modify kind edited f).get? other token = t.get? other token := by
  unfold modify
  split
  · exact get?_setArena_other t _ hne token
  · rfl

/-- A lookup after an edit finds the edited symbol at the edited token, and what was there before at
    all others. -/
theorem get?_modify_same (t : SymbolTable) (kind : SymbolKind) (edited : Token)
    (f : Symbol kind → Symbol kind) (token : Token) :
    (t.modify kind edited f).get? kind token =
      if token = edited then (t.get? kind token).map f else t.get? kind token := by
  unfold modify
  split
  · next i hi =>
    rw [get?_setArena_same]
    by_cases heq : token = edited
    · subst heq
      simp [get?, hi, Array.getElem?_modify]
    · rw [if_neg heq]
      simp only [get?]
      cases hj : token.index? kind with
      | none => rfl
      | some j =>
        -- Two tokens at one place of a table are the same token.
        have hij : i ≠ j := by
          rintro rfl
          exact heq ((Token.eq_ofParts_of_index? hj).trans (Token.eq_ofParts_of_index? hi).symm)
        simp [Array.getElem?_modify, hij]
  · next hnone =>
    split
    · next heq => simp [get?, heq, hnone]
    · rfl

end SymbolTable

end DefensiveCopy
