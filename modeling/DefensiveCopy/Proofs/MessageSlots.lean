import DefensiveCopy.Finding.Class
import Mathlib.Data.List.Infix

/-!
# Names in messages

A message is a template with the names of a member and of a receiver in its slots.  The slots are
filled one after the other, so the second filling runs over the name that the first one has put in.
Where the name of the member contains slot 1, the name of the receiver is put in there as well;
otherwise the message is the one that filling all slots of the template at once gives
(`ClassDescriptor.quoting`).

Nothing else of a name is ever taken for a slot, not even together with the text around it.  The
templates have an apostrophe on both sides of each slot, and filling goes on independently on the
two sides of a character that is part of no slot.

## Key results

- `Text.fillSlotsChars_append_cons`: the two sides of a character outside slots are independent
- `Text.fillSlotChars_eq_self_iff`: when filling a slot leaves a text as it is
- `FindingClass.format_eq_quoting_iff`: when a message quotes both names as they are
-/

namespace DefensiveCopy

namespace Text

/-! ## Filling all slots at once -/

/-- A slot as it stands in a template. -/
def slotChars (slot : Char) : List Char := ['\x7b', slot, '\x7d']

/-- Every slot that has a value filled, in one pass that does not look inside the values. -/
def fillSlotsChars (value? : Char → Option (List Char)) : List Char → List Char
  | '\x7b' :: digit :: '\x7d' :: rest =>
    match value? digit with
    | some value => value ++ fillSlotsChars value? rest
    | none => '\x7b' :: fillSlotsChars value? (digit :: '\x7d' :: rest)
  | c :: rest => c :: fillSlotsChars value? rest
  | [] => []

/-- The value of one slot; no other slot has one. -/
def onlySlot (slot : Char) (value : List Char) (digit : Char) : Option (List Char) :=
  if digit = slot then some value else none

/-- Filling one slot is filling all slots where no other one has a value. -/
private theorem fillSlotChars_eq_fillSlotsChars (slot : Char) (value cs : List Char) :
    fillSlotChars slot value cs = fillSlotsChars (onlySlot slot value) cs := by
  induction cs using fillSlotChars.induct slot with
  | case1 rest ih => simp [fillSlotChars, fillSlotsChars, onlySlot, ih]
  | case2 digit rest hdigit ih => simp [fillSlotChars, fillSlotsChars, onlySlot, hdigit, ih]
  | case3 c rest hslot ih => rw [fillSlotChars, fillSlotsChars, ih] <;> exact hslot
  | case4 => rfl

section

variable {value? : Char → Option (List Char)}

/-- A slot alone is replaced by its value. -/
private theorem fillSlotsChars_slot {digit : Char} (value : List Char)
    (h : value? digit = some value) :
    fillSlotsChars value? (slotChars digit) = value := by
  simp [slotChars, fillSlotsChars, h]

/-- A character stays if no slot with a value starts at it. -/
private theorem fillSlotsChars_cons {c : Char} {rest : List Char}
    (h : ∀ digit, (value? digit).isSome → ¬slotChars digit <+: c :: rest) :
    fillSlotsChars value? (c :: rest) = c :: fillSlotsChars value? rest := by
  by_cases hslot : ∃ digit others, c = '\x7b' ∧ rest = digit :: '\x7d' :: others
  · obtain ⟨digit, others, rfl, rfl⟩ := hslot
    cases hvalue : value? digit with
    | none => simp [fillSlotsChars, hvalue]
    | some value =>
      exact absurd (List.prefix_append (slotChars digit) others) (h digit (by simp [hvalue]))
  · rw [fillSlotsChars]
    exact fun digit others hc hrest => hslot ⟨digit, others, hc, hrest⟩

/-- A text without an opening brace has no slot. -/
private theorem fillSlotsChars_of_not_mem {cs : List Char} (h : '\x7b' ∉ cs) :
    fillSlotsChars value? cs = cs := by
  induction cs with
  | nil => rfl
  | cons c rest ih =>
    rw [fillSlotsChars_cons, ih fun hrest => h (List.mem_cons_of_mem c hrest)]
    intro digit _ hslot
    obtain ⟨rfl, -⟩ := List.cons_prefix_cons.1 hslot
    exact h List.mem_cons_self

/-- The two sides of a character that is part of no slot are filled independently. -/
theorem fillSlotsChars_append_cons {c : Char} (hopen : c ≠ '\x7b') (hclose : c ≠ '\x7d')
    (hdigit : value? c = none) (cs ds : List Char) :
    fillSlotsChars value? (cs ++ c :: ds) =
      fillSlotsChars value? cs ++ c :: fillSlotsChars value? ds := by
  induction cs using fillSlotsChars.induct value? with
  -- A slot that is filled ends before `c`, so what comes after it is shorter.
  | case1 digit rest value hvalue ih => simp [fillSlotsChars, hvalue, ih]
  | case2 digit rest hvalue ih => simpa [fillSlotsChars, hvalue] using ih
  | case3 first rest hslot ih =>
    -- A slot that starts at the first character would end before `c`, or have `c` as a part.
    have hnone : ∀ digit, (value? digit).isSome →
        ¬slotChars digit <+: first :: (rest ++ c :: ds) := by
      intro digit hvalue hprefix
      obtain ⟨hfirst, hprefix⟩ := List.cons_prefix_cons.1 hprefix
      rcases rest with _ | ⟨second, _ | ⟨third, others⟩⟩
      · obtain ⟨rfl, -⟩ := List.cons_prefix_cons.1 hprefix
        simp [hdigit] at hvalue
      · obtain ⟨-, hprefix⟩ := List.cons_prefix_cons.1 hprefix
        exact hclose (List.cons_prefix_cons.1 hprefix).1.symm
      · obtain ⟨-, hprefix⟩ := List.cons_prefix_cons.1 hprefix
        obtain ⟨hthird, -⟩ := List.cons_prefix_cons.1 hprefix
        exact hslot second others hfirst.symm (by rw [hthird])
    rw [List.cons_append, fillSlotsChars_cons hnone, ih, fillSlotsChars, List.cons_append]
    exact hslot
  | case4 =>
    rw [List.nil_append, fillSlotsChars_cons]
    · rfl
    · intro digit _ hprefix
      exact hopen (List.cons_prefix_cons.1 hprefix).1.symm

end

/-! ## Texts that filling leaves as they are -/

variable {slot : Char} {value : List Char}

/-- Each filling of a slot exchanges three characters for the value. -/
private theorem length_fillSlotChars (slot : Char) (value cs : List Char) :
    ∃ count, (fillSlotChars slot value cs).length + count * 3 =
      cs.length + count * value.length := by
  induction cs using fillSlotChars.induct slot with
  -- A slot is filled, which is one exchange more.
  | case1 rest ih =>
    obtain ⟨count, ih⟩ := ih
    refine ⟨count + 1, ?_⟩
    simp only [fillSlotChars, if_true, List.length_append, List.length_cons, Nat.add_mul]
    omega
  | case2 digit rest hdigit ih =>
    obtain ⟨count, ih⟩ := ih
    refine ⟨count, ?_⟩
    rw [fillSlotChars, if_neg hdigit, List.length_cons, List.length_cons]
    omega
  | case3 c rest hslot ih =>
    obtain ⟨count, ih⟩ := ih
    refine ⟨count, ?_⟩
    rw [fillSlotChars, List.length_cons, List.length_cons]
    · omega
    · exact hslot
  | case4 => exact ⟨0, by simp [fillSlotChars]⟩

/-- A value that fills a slot without any effect is the slot itself. -/
private theorem eq_slotChars_of_append_eq {rest : List Char}
    (h : value ++ fillSlotChars slot value rest = slotChars slot ++ rest) :
    value = slotChars slot := by
  obtain ⟨count, hcount⟩ := length_fillSlotChars slot value rest
  have hlengths : value.length + (fillSlotChars slot value rest).length = 3 + rest.length := by
    rw [← List.length_append, h, List.length_append]
    rfl
  -- All fillings change the length in the same direction as this one, so none changes it.
  have hequal : (count + 1) * value.length = (count + 1) * 3 := by
    rw [Nat.add_mul, Nat.add_mul]
    omega
  exact List.append_inj_left h (Nat.eq_of_mul_eq_mul_left count.succ_pos hequal)

/-- Filling a slot leaves a text as it is exactly if the text does not contain the slot, or if the
    value is the slot itself. -/
theorem fillSlotChars_eq_self_iff {cs : List Char} :
    fillSlotChars slot value cs = cs ↔ (slotChars slot <:+: cs → value = slotChars slot) := by
  induction cs using fillSlotChars.induct slot with
  | case1 rest ih =>
    have hslot : slotChars slot <:+: '\x7b' :: slot :: '\x7d' :: rest :=
      (List.prefix_append (slotChars slot) rest).isInfix
    rw [fillSlotChars, if_pos rfl]
    -- The text starts with the slot, so it is the value itself that has to be the slot.
    constructor
    · exact fun h _ => eq_slotChars_of_append_eq h
    · intro h
      rw [ih.2 fun _ => h hslot, h hslot]
      rfl
  | case2 digit rest hdigit ih =>
    have hprefix : ¬slotChars slot <+: '\x7b' :: digit :: '\x7d' :: rest := by
      simpa [slotChars] using fun h => hdigit h.symm
    -- The digit is another one, so a slot can only stand further right.
    have hinfix := List.infix_cons_iff.trans (or_iff_right hprefix)
    rw [fillSlotChars, if_neg hdigit, List.cons_inj_right, ih, hinfix]
  | case3 c rest hslot ih =>
    have hprefix : ¬slotChars slot <+: c :: rest := by
      rintro ⟨others, hothers⟩
      obtain ⟨hc, hrest⟩ := List.cons.inj hothers
      exact hslot slot others hc.symm hrest.symm
    have hinfix := List.infix_cons_iff.trans (or_iff_right hprefix)
    rw [fillSlotChars, List.cons_inj_right, ih, hinfix]
    exact hslot
  | case4 => simp [fillSlotChars, slotChars]

end Text

/-! ## Messages -/

/-- Two texts between apostrophes, with other texts before each of them. -/
def quotedChars (lead first middle second : List Char) : List Char :=
  lead ++ '\x27' :: (first ++ '\x27' :: (middle ++ '\x27' :: (second ++ ['\x27'])))

/-- Two messages that differ at most in the first quoted text are equal only if it is the same. -/
private theorem quotedChars_inj {lead first other middle second : List Char} :
    quotedChars lead first middle second = quotedChars lead other middle second ↔
      first = other := by
  simp [quotedChars]

/-- The texts between apostrophes are filled independently of those around them, which stay as they
    are if they have no slot. -/
private theorem fillSlotsChars_quotedChars {value? : Char → Option (List Char)}
    {lead middle : List Char}
    (h : value? '\x27' = none) (hlead : '\x7b' ∉ lead) (hmiddle : '\x7b' ∉ middle)
    (first second : List Char) :
    Text.fillSlotsChars value? (quotedChars lead first middle second) =
      quotedChars lead (Text.fillSlotsChars value? first) middle
        (Text.fillSlotsChars value? second) := by
  -- An apostrophe is part of no slot, so a text can be cut at each of them.
  have hsides : ∀ cs ds, Text.fillSlotsChars value? (cs ++ '\x27' :: ds) =
      Text.fillSlotsChars value? cs ++ '\x27' :: Text.fillSlotsChars value? ds :=
    Text.fillSlotsChars_append_cons (by decide) (by decide) h
  simp only [quotedChars, hsides, Text.fillSlotsChars_of_not_mem hlead,
    Text.fillSlotsChars_of_not_mem hmiddle, Text.fillSlotsChars]

namespace ClassDescriptor

/-- The message with both names as they are: the slots of the template are filled at once. -/
def quoting (descriptor : ClassDescriptor) (member receiver : String) : String :=
  String.ofList (Text.fillSlotsChars
    (fun digit =>
      if digit = '0' then some member.toList
      else if digit = '1' then some receiver.toList
      else none)
    descriptor.messageTemplate.toList)

section

variable {descriptor : ClassDescriptor} {lead middle : List Char}
  (htemplate : descriptor.messageTemplate.toList =
    quotedChars lead (Text.slotChars '0') middle (Text.slotChars '1'))
  (hlead : '\x7b' ∉ lead) (hmiddle : '\x7b' ∉ middle)

include htemplate hlead hmiddle

/-- The names stand in the message as they are. -/
private theorem toList_quoting (member receiver : String) :
    (descriptor.quoting member receiver).toList =
      quotedChars lead member.toList middle receiver.toList := by
  rw [quoting, String.toList_ofList, htemplate,
    fillSlotsChars_quotedChars rfl hlead hmiddle,
    Text.fillSlotsChars_slot member.toList rfl, Text.fillSlotsChars_slot receiver.toList rfl]

/-- Filling slot 0 leaves slot 1 for the receiver, and filling slot 1 runs over the name of the
    member. -/
private theorem toList_format (member receiver : String) :
    (descriptor.format member receiver).toList =
      quotedChars lead (Text.fillSlot member '1' receiver).toList middle receiver.toList := by
  -- Slot 1 of the template is still there when slot 0 has been filled.
  have hother : Text.fillSlotChars '0' member.toList (Text.slotChars '1') = Text.slotChars '1' :=
    Text.fillSlotChars_eq_self_iff.2 fun h => absurd h (by decide)
  simp only [format, Text.fillSlot, String.toList_ofList, htemplate,
    Text.fillSlotChars_eq_fillSlotsChars] at hother ⊢
  rw [fillSlotsChars_quotedChars rfl hlead hmiddle, Text.fillSlotsChars_slot member.toList rfl,
    hother, fillSlotsChars_quotedChars rfl hlead hmiddle,
    Text.fillSlotsChars_slot receiver.toList rfl]

end

end ClassDescriptor

namespace FindingClass

/-- Each template has both slots once, the slot of the member first, between apostrophes. -/
private theorem exists_messageTemplate_eq (findingClass : FindingClass) :
    ∃ lead middle : List Char, '\x7b' ∉ lead ∧ '\x7b' ∉ middle ∧
      findingClass.descriptor.messageTemplate.toList =
        quotedChars lead (Text.slotChars '0') middle (Text.slotChars '1') := by
  cases findingClass with
  | necessary =>
    exact ⟨"Call to member ".toList, " will execute on a defensive copy of ".toList,
      by decide +kernel, by decide +kernel, by decide +kernel⟩
  | unnecessary =>
    exact ⟨"Call to readonly member ".toList,
      " will execute on an unnecessary defensive copy of ".toList, by decide +kernel,
      by decide +kernel, by decide +kernel⟩

/-- In the message of a class, the name of the receiver stands as it is, and the name of the member
    with the name of the receiver in place of every slot 1 that it contains.  So both names stand as
    they are exactly if the name of the member does not contain slot 1, or if the name of the
    receiver is slot 1 itself. -/
theorem format_eq_quoting_iff (findingClass : FindingClass) (member receiver : String) :
    findingClass.descriptor.format member receiver =
      findingClass.descriptor.quoting (Text.fillSlot member '1' receiver) receiver ∧
    (findingClass.descriptor.format member receiver =
        findingClass.descriptor.quoting member receiver ↔
      (Text.slotChars '1' <:+: member.toList → receiver = "\x7b1\x7d")) := by
  obtain ⟨lead, middle, hlead, hmiddle, htemplate⟩ := findingClass.exists_messageTemplate_eq
  have hquoting := ClassDescriptor.toList_quoting htemplate hlead hmiddle
  have hformat := ClassDescriptor.toList_format htemplate hlead hmiddle member receiver
  have hslot : receiver.toList = Text.slotChars '1' ↔ receiver = "\x7b1\x7d" := by
    rw [← String.toList_inj]
    rfl
  constructor
  · rw [← String.toList_inj, hformat, hquoting]
  · -- Both messages have the same receiver, so they differ in the name of the member alone.
    rw [← String.toList_inj, hformat, hquoting, quotedChars_inj, Text.fillSlot,
      String.toList_ofList, Text.fillSlotChars_eq_self_iff, hslot]

/-- A member whose name is slot 1 is not named in the message: the receiver is named twice. -/
theorem format_of_member_slot :
    FindingClass.necessary.descriptor.format "\x7b1\x7d" "value" =
      "Call to member 'value' will execute on a defensive copy of 'value'" ∧
    FindingClass.necessary.descriptor.quoting "\x7b1\x7d" "value" =
      "Call to member '\x7b1\x7d' will execute on a defensive copy of 'value'" ∧
    FindingClass.necessary.descriptor.format "\x7b1\x7d" "value" ≠
      FindingClass.necessary.descriptor.quoting "\x7b1\x7d" "value" := by
  decide +kernel

end FindingClass

end DefensiveCopy
