import DefensiveCopy.Analysis.Options
import Mathlib.Data.List.DropRight

/-!
# The written forms of an include-list

Many texts stand for one include-list: commas and semicolons may be mixed and repeated, and blank
characters may stand around entries and between separators.  `IsWriting` is the grammar of these
texts: blanks alone, one entry among blanks, or two such texts with a separator between them.
Parsing inverts it.  A text parses to a list of proper entries exactly if it is one of the written
forms of that list, and all entries that parsing gives are proper, so that they may be written back
in any of these forms without being lost, merged or divided.

Everything about parsing rests on two facts: a separator divides the entries of a text into those
before it and those after it, and a text without separators has at most one entry, which is what
trimming leaves of it.

## Key results

- `Text.trimChars_padded`, `Text.exists_padding`: trimming removes padding, and nothing else
- `IncludeList.parse_append_separator`: a separator divides the entries
- `IncludeList.isEntry_of_mem_parse`: what parsing gives is proper
- `IncludeList.parse_eq_iff_isWriting`: parsing inverts writing
-/

namespace DefensiveCopy

/-! ## Trimming -/

namespace Text

/-- Nothing is left of a text exactly if it is blank. -/
private theorem trimChars_eq_nil_iff {cs : List Char} :
    trimChars cs = [] ↔ ∀ c ∈ cs, isBlank c := by
  have hcut : trimChars cs = (cs.dropWhile isBlank).rdropWhile isBlank := rfl
  rw [hcut, List.rdropWhile_eq_nil_iff, ← List.dropWhile_eq_nil_iff, List.dropWhile_idempotent,
    List.dropWhile_eq_nil_iff]

/-- Trimming leaves no blank character at the start. -/
private theorem isBlank_head_trimChars {cs : List Char} {c : Char}
    (h : (trimChars cs).head? = some c) :
    isBlank c = false := by
  have hprefix : trimChars cs <+: cs.dropWhile isBlank := List.rdropWhile_prefix ..
  obtain ⟨after, hafter⟩ := hprefix
  -- What is cut off at the end does not move the first character.
  have hhead : (cs.dropWhile isBlank).head? = some c := by
    rw [← hafter, List.head?_append, h]
    rfl
  have hnot := List.head?_dropWhile_not isBlank cs
  rwa [hhead] at hnot

/-- Trimming leaves no blank character at the end. -/
private theorem isBlank_last_trimChars {cs : List Char} {c : Char}
    (h : (trimChars cs).getLast? = some c) : isBlank c = false := by
  rw [trimChars, List.getLast?_reverse] at h
  have hnot := List.head?_dropWhile_not isBlank (cs.dropWhile isBlank).reverse
  rwa [h] at hnot

/-- Trimming removes padding. -/
theorem trimChars_padded {before cs after : List Char} (hbefore : ∀ c ∈ before, isBlank c)
    (hafter : ∀ c ∈ after, isBlank c) (hne : cs ≠ [])
    (hhead : ∀ c ∈ cs.head?, isBlank c = false) (hlast : ∀ c ∈ cs.getLast?, isBlank c = false) :
    trimChars (before ++ cs ++ after) = cs := by
  -- Dropping from the front stops at the first character of `cs`, and from the back at its last.
  have hstart : (before ++ cs ++ after).dropWhile isBlank = cs ++ after := by
    obtain ⟨c, rest, rfl⟩ := List.exists_cons_of_ne_nil hne
    have hc : isBlank c = false := hhead c rfl
    rw [List.append_assoc, List.dropWhile_append_of_pos hbefore, List.cons_append,
      List.dropWhile_cons_of_neg (by simp [hc])]
  have hend : (after.reverse ++ cs.reverse).dropWhile isBlank = cs.reverse := by
    have hafter' : ∀ c ∈ after.reverse, isBlank c := fun c hc => hafter c (List.mem_reverse.1 hc)
    obtain ⟨c, rest, hrest⟩ := List.exists_cons_of_ne_nil (List.reverse_ne_nil_iff.2 hne)
    have hc : isBlank c = false := by
      apply hlast
      rw [← List.head?_reverse, hrest]
      rfl
    rw [List.dropWhile_append_of_pos hafter', hrest, List.dropWhile_cons_of_neg (by simp [hc])]
  rw [trimChars, hstart, List.reverse_append, hend, List.reverse_reverse]

/-- Trimming removes nothing but padding. -/
theorem exists_padding (cs : List Char) :
    ∃ before after, (∀ c ∈ before, isBlank c) ∧ (∀ c ∈ after, isBlank c) ∧
      cs = before ++ trimChars cs ++ after := by
  refine ⟨cs.takeWhile isBlank, (cs.dropWhile isBlank).rtakeWhile isBlank,
    fun c hc => List.mem_takeWhile_imp hc, fun c hc => List.mem_rtakeWhile_imp hc, ?_⟩
  calc cs = cs.takeWhile isBlank ++ cs.dropWhile isBlank :=
        List.takeWhile_append_dropWhile.symm
    _ = cs.takeWhile isBlank ++ (trimChars cs ++ (cs.dropWhile isBlank).rtakeWhile isBlank) :=
        congrArg _ (List.rdropWhile_append_rtakeWhile ..).symm
    _ = _ := (List.append_assoc ..).symm

end Text

namespace IncludeList

/-! ## Entries and written forms -/

/-- A proper entry: it can stand in an include-list and be read back as it is. -/
structure IsEntry (entry : String) : Prop where
  nonempty : entry ≠ ""
  /-- The first character is not blank. -/
  head : ∀ c ∈ entry.toList.head?, Text.isBlank c = false
  /-- The last character is not blank. -/
  last : ∀ c ∈ entry.toList.getLast?, Text.isBlank c = false
  comma : ',' ∉ entry.toList
  semicolon : ';' ∉ entry.toList

/-- The text is a written form of the entries.  A blank text on one side of a separator is an extra
    entry that does not count. -/
inductive IsWriting : List String → List Char → Prop where
  | blank {padding : List Char} : (∀ c ∈ padding, Text.isBlank c) → IsWriting [] padding
  | entry {before after : List Char} (entry : String) : (∀ c ∈ before, Text.isBlank c) →
      (∀ c ∈ after, Text.isBlank c) → IsWriting [entry] (before ++ entry.toList ++ after)
  | join {entries others : List String} {cs ds : List Char} {separator : Char} :
      IsWriting entries cs → isSeparator separator → IsWriting others ds →
        IsWriting (entries ++ others) (cs ++ separator :: ds)

/-- The separators are the comma and the semicolon. -/
private theorem isSeparator_eq_false_iff {c : Char} :
    isSeparator c = false ↔ c ≠ ',' ∧ c ≠ ';' := by
  simp [isSeparator]

/-- No separator is blank. -/
private theorem isSeparator_of_isBlank {c : Char} (h : Text.isBlank c) : isSeparator c = false := by
  refine isSeparator_eq_false_iff.2 ⟨?_, ?_⟩
  · rintro rfl
    exact absurd h (by decide)
  · rintro rfl
    exact absurd h (by decide)

/-- A proper entry contains no separator. -/
theorem IsEntry.isSeparator {entry : String} (h : IsEntry entry) :
    ∀ c ∈ entry.toList, IncludeList.isSeparator c = false := by
  intro c hc
  refine isSeparator_eq_false_iff.2 ⟨?_, ?_⟩
  · rintro rfl
    exact h.comma hc
  · rintro rfl
    exact h.semicolon hc

/-! ## One separator, one entry -/

/-- A separator divides the entries into those before and those after it. -/
theorem parse_append_separator {separator : Char} (h : isSeparator separator)
    (cs ds : List Char) :
    parse (String.ofList (cs ++ separator :: ds)) =
      parse (String.ofList cs) ++ parse (String.ofList ds) := by
  simp only [parse, String.toList_ofList, List.splitOnP_append_cons cs ds h, List.map_append,
    List.filter_append]

/-- A text without separators has one entry at most. -/
private theorem parse_of_no_separator {cs : List Char} (h : ∀ c ∈ cs, isSeparator c = false) :
    parse (String.ofList cs) =
      if Text.trimChars cs = [] then [] else [String.ofList (Text.trimChars cs)] := by
  rw [parse, String.toList_ofList, List.splitOnP_eq_singleton h]
  split
  · next hnil => simp [hnil]
  · next hne => simp [hne]

/-- A blank text has no entries. -/
private theorem parse_of_blank {padding : List Char} (h : ∀ c ∈ padding, Text.isBlank c) :
    parse (String.ofList padding) = [] := by
  rw [parse_of_no_separator fun c hc => isSeparator_of_isBlank (h c hc),
    if_pos (Text.trimChars_eq_nil_iff.2 h)]

/-- A proper entry with blanks around it is the only entry. -/
private theorem parse_of_padded {before after : List Char} {entry : String} (hentry : IsEntry entry)
    (hbefore : ∀ c ∈ before, Text.isBlank c) (hafter : ∀ c ∈ after, Text.isBlank c) :
    parse (String.ofList (before ++ entry.toList ++ after)) = [entry] := by
  have hne : entry.toList ≠ [] := fun hnil => hentry.nonempty (String.toList_eq_nil_iff.1 hnil)
  -- Neither the blanks nor the entry hold a separator, so there is one piece.
  have hseparator : ∀ c ∈ before ++ entry.toList ++ after, isSeparator c = false := by
    intro c hc
    rcases List.mem_append.1 hc with hc | hc
    · rcases List.mem_append.1 hc with hc | hc
      · exact isSeparator_of_isBlank (hbefore c hc)
      · exact hentry.isSeparator c hc
    · exact isSeparator_of_isBlank (hafter c hc)
  rw [parse_of_no_separator hseparator,
    Text.trimChars_padded hbefore hafter hne hentry.head hentry.last, if_neg hne,
    String.ofList_toList]

/-- A text has no separator, or it consists of two texts with a separator between them. -/
@[elab_as_elim]
theorem separatorInduction {motive : List Char → Prop}
    (piece : ∀ cs, (∀ c ∈ cs, isSeparator c = false) → motive cs)
    (join : ∀ cs separator ds, isSeparator separator → motive cs → motive ds →
      motive (cs ++ separator :: ds))
    (cs : List Char) : motive cs := by
  by_cases h : ∃ separator ∈ cs, isSeparator separator
  · -- Any separator will do: the texts on both sides of it are shorter.
    obtain ⟨separator, hmem, hseparator⟩ := h
    obtain ⟨before, after, hcs⟩ := List.append_of_mem hmem
    have hlength : cs.length = before.length + (after.length + 1) := by simp [hcs]
    rw [hcs]
    exact join before separator after hseparator (separatorInduction piece join before)
      (separatorInduction piece join after)
  · refine piece cs fun c hc => ?_
    simpa using fun hseparator => h ⟨c, hc, hseparator⟩
termination_by cs.length

/-! ## Parsing and writing -/

/-- What parsing gives is proper. -/
theorem isEntry_of_mem_parse (cs : List Char) :
    ∀ entry ∈ parse (String.ofList cs), IsEntry entry := by
  induction cs using separatorInduction with
  | piece cs hpiece =>
    intro entry hentry
    rw [parse_of_no_separator hpiece] at hentry
    split at hentry
    · cases hentry
    · next hne =>
      obtain rfl : entry = String.ofList (Text.trimChars cs) := List.mem_singleton.1 hentry
      -- Trimming only leaves out characters, so it brings in no separator.
      have hseparator : ∀ c ∈ Text.trimChars cs, isSeparator c = false := by
        obtain ⟨before, after, -, -, hcs⟩ := Text.exists_padding cs
        intro c hc
        refine hpiece c ?_
        rw [hcs]
        exact List.mem_append_left _ (List.mem_append_right _ hc)
      refine ⟨by simpa using hne, ?_, ?_, ?_, ?_⟩
      · -- What is trimmed has no blank at either end.
        simpa using fun c => Text.isBlank_head_trimChars
      · simpa using fun c => Text.isBlank_last_trimChars
      · rw [String.toList_ofList]
        exact fun hc => absurd (hseparator _ hc) (by decide)
      · rw [String.toList_ofList]
        exact fun hc => absurd (hseparator _ hc) (by decide)
  | join cs separator ds hseparator ihcs ihds =>
    intro entry hentry
    rw [parse_append_separator hseparator] at hentry
    rcases List.mem_append.1 hentry with hentry | hentry
    · exact ihcs entry hentry
    · exact ihds entry hentry

/-- Every text is a written form of the entries that parsing gives. -/
private theorem isWriting_parse (cs : List Char) : IsWriting (parse (String.ofList cs)) cs := by
  induction cs using separatorInduction with
  -- A piece without a separator is blank, or a padded entry.
  | piece cs hpiece =>
    rw [parse_of_no_separator hpiece]
    split
    · next hnil => exact .blank (Text.trimChars_eq_nil_iff.1 hnil)
    · obtain ⟨before, after, hbefore, hafter, hcs⟩ := Text.exists_padding cs
      have hwriting := IsWriting.entry (String.ofList (Text.trimChars cs)) hbefore hafter
      rwa [String.toList_ofList, ← hcs] at hwriting
  | join cs separator ds hseparator ihcs ihds =>
    rw [parse_append_separator hseparator]
    exact .join ihcs hseparator ihds

/-- Parsing a written form of proper entries gives them back. -/
theorem IsWriting.parse_eq {entries : List String} {cs : List Char} (h : IsWriting entries cs)
    (hentries : ∀ entry ∈ entries, IsEntry entry) : parse (String.ofList cs) = entries := by
  induction h with
  | blank hpadding => exact parse_of_blank hpadding
  | entry entry hbefore hafter =>
    exact parse_of_padded (hentries entry (List.mem_singleton_self entry)) hbefore hafter
  | join _ hseparator _ ihentries ihothers =>
    rw [parse_append_separator hseparator,
      ihentries fun entry hentry => hentries entry (List.mem_append_left _ hentry),
      ihothers fun entry hentry => hentries entry (List.mem_append_right _ hentry)]

/-- Parsing inverts writing: the texts that parse to a list of proper entries are its written
    forms. -/
theorem parse_eq_iff_isWriting {entries : List String} (hentries : ∀ entry ∈ entries, IsEntry entry)
    (text : String) : parse text = entries ↔ IsWriting entries text.toList := by
  have htext : String.ofList text.toList = text := String.ofList_toList
  constructor
  · rintro rfl
    have hwriting := isWriting_parse text.toList
    rwa [htext] at hwriting
  · intro hwriting
    have hparse := hwriting.parse_eq hentries
    rwa [htext] at hparse

end IncludeList

/-! ## Options -/

namespace AnalysisOptions

/-- Parsing an include-list gives a normal form.  Its entries are not empty, neither start nor end
    with a blank character and contain neither a comma nor a semicolon.  The other texts that parse
    to the same list are exactly those in which these entries are written back in order, with one
    separator or more between them, any blanks around them and any number of blank extra entries;
    the options of all these texts report the same classes. -/
theorem includeList_eq_iff_isWriting (text : String) :
    (∀ entry ∈ (ofIncludeList text).includeList, IncludeList.IsEntry entry) ∧
    ∀ other : String,
      (IncludeList.IsWriting (ofIncludeList text).includeList other.toList ↔
        (ofIncludeList other).includeList = (ofIncludeList text).includeList) ∧
      (IncludeList.IsWriting (ofIncludeList text).includeList other.toList →
        ∀ findingClass,
          (ofIncludeList other).reports findingClass =
            (ofIncludeList text).reports findingClass) := by
  have hentries : ∀ entry ∈ (ofIncludeList text).includeList, IncludeList.IsEntry entry := by
    have hparse := IncludeList.isEntry_of_mem_parse text.toList
    rwa [String.ofList_toList] at hparse
  refine ⟨hentries, fun other => ?_⟩
  have hiff := IncludeList.parse_eq_iff_isWriting hentries other
  refine ⟨hiff.symm, fun hwriting findingClass => ?_⟩
  have hlist : (ofIncludeList other).includeList = (ofIncludeList text).includeList :=
    hiff.2 hwriting
  -- Which classes are reported is read off the parsed list.
  rw [reports, reports, hlist]

/-- Another way to write a list with a short identifier and an unknown one: two blank extra entries,
    other separators and other blanks.  It still reports unnecessary copies alone. -/
theorem includeList_eq_respelled :
    IncludeList.IsWriting (ofIncludeList " HAM0003;x").includeList
      "\u00A0;HAM0003\t, ;\u3000x".toList ∧
    (ofIncludeList "\u00A0;HAM0003\t, ;\u3000x").includeList = ["HAM0003", "x"] ∧
    (ofIncludeList "\u00A0;HAM0003\t, ;\u3000x").reports .unnecessary = true ∧
    (ofIncludeList "\u00A0;HAM0003\t, ;\u3000x").reports .necessary = false := by
  have hlist : (ofIncludeList " HAM0003;x").includeList = ["HAM0003", "x"] := by decide +kernel
  have hwriting : IncludeList.IsWriting (ofIncludeList " HAM0003;x").includeList
      "\u00A0;HAM0003\t, ;\u3000x".toList := by
    have hstart : IncludeList.IsWriting [] ['\u00A0'] := .blank (List.forall_mem_singleton.2 rfl)
    have hfirst : IncludeList.IsWriting ["HAM0003"] ([] ++ "HAM0003".toList ++ ['\t']) :=
      .entry _ (List.forall_mem_nil _) (List.forall_mem_singleton.2 rfl)
    have hextra : IncludeList.IsWriting [] [' '] := .blank (List.forall_mem_singleton.2 rfl)
    have hsecond : IncludeList.IsWriting ["x"] (['\u3000'] ++ "x".toList ++ []) :=
      .entry _ (List.forall_mem_singleton.2 rfl) (List.forall_mem_nil _)
    -- The text is cut at its three separators, two of which have nothing but blanks between them.
    have htext : "\u00A0;HAM0003\t, ;\u3000x".toList =
        ['\u00A0'] ++ ';' :: (([] ++ "HAM0003".toList ++ ['\t']) ++
          ',' :: ([' '] ++ ';' :: (['\u3000'] ++ "x".toList ++ []))) := by
      decide +kernel
    rw [hlist, htext]
    exact hstart.join rfl (hfirst.join rfl (hextra.join rfl hsecond))
  obtain ⟨hiff, hreports⟩ :=
    (includeList_eq_iff_isWriting " HAM0003;x").2 "\u00A0;HAM0003\t, ;\u3000x"
  refine ⟨hwriting, (hiff.1 hwriting).trans hlist, ?_, ?_⟩
  · rw [hreports hwriting]
    decide +kernel
  · rw [hreports hwriting]
    decide +kernel

end AnalysisOptions

end DefensiveCopy
