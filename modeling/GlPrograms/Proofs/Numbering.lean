import GlPrograms.Proofs.Reading
import GlPrograms.Text.Numbered

namespace GlPrograms.Text

/-- The lines of a text. Only a line feed ends a line, and it belongs to the line. What follows the
last line feed is a line too, unless it is empty. -/
inductive Lined : List Char → List (List Char) → Prop
  | nil : Lined [] []
  | last {l : List Char} (inline : '\n' ∉ l) (nonempty : l ≠ []) : Lined l [l]
  | line {l rest : List Char} {ls : List (List Char)} (inline : '\n' ∉ l) (more : Lined rest ls) :
      Lined (l ++ '\n' :: rest) ((l ++ ['\n']) :: ls)

def lines : List Char → List (List Char)
  | [] => []
  | c :: cs =>
      if c = '\n' then [c] :: lines cs
      else
        match lines cs with
        | [] => [[c]]
        | l :: ls => (c :: l) :: ls

def afterColon : List Char → List Char
  | [] => []
  | c :: cs => if [':', ' '].isPrefixOf (c :: cs) then cs.drop 1 else afterColon cs

section Lines

variable {s l : List Char} {ls : List (List Char)}

theorem Lined.lines_eq (h : Lined s ls) : lines s = ls := by
  induction h with
  | nil => rfl
  | @last l inline nonempty =>
    induction l with
    | nil => exact absurd rfl nonempty
    | cons c l ih =>
      rw [List.mem_cons, not_or] at inline
      rw [lines, if_neg (Ne.symm inline.1)]
      cases l with
      | nil => rfl
      | cons d l => rw [ih inline.2 (List.cons_ne_nil d l)]
  | @line l rest ls inline more ih =>
    induction l with
    | nil => rw [List.nil_append, lines, if_pos rfl, ih, List.nil_append]
    | cons c l ihl =>
      rw [List.mem_cons, not_or] at inline
      rw [List.cons_append, lines, if_neg (Ne.symm inline.1), ihl inline.2]
      rfl

theorem Lined.cons {c : Char} (hc : c ≠ '\n') (h : Lined s ls) : ∃ ls', Lined (c :: s) ls' := by
  cases h with
  | nil => exact ⟨_, .last (by simpa using hc.symm) (List.cons_ne_nil c [])⟩
  | last inline nonempty => exact ⟨_, .last (by simp [inline, hc.symm]) (List.cons_ne_nil c _)⟩
  | @line l rest ls inline more =>
    have hl : '\n' ∉ c :: l := by simp [inline, hc.symm]
    exact ⟨_, .line hl more⟩

theorem lined_lines (s : List Char) : Lined s (lines s) := by
  have some_lines : ∃ ls, Lined s ls := by
    induction s with
    | nil => exact ⟨[], .nil⟩
    | cons c s ih =>
      obtain ⟨ls, h⟩ := ih
      by_cases hc : c = '\n'
      · exact ⟨_, hc ▸ Lined.line (l := []) List.not_mem_nil h⟩
      · exact h.cons hc
  obtain ⟨ls, h⟩ := some_lines
  exact h.lines_eq ▸ h

theorem Lined.flatten_eq (h : Lined s ls) : ls.flatten = s := by
  induction h with
  | nil => rfl
  | last => simp
  | line inline more ih => simp [ih]

theorem afterColon_label {front : List Char} (h : ':' ∉ front) (rest : List Char) :
    afterColon (front ++ ':' :: ' ' :: rest) = rest := by
  induction front with
  | nil => simp [afterColon]
  | cons c front ih =>
    rw [List.mem_cons, not_or] at h
    rw [List.cons_append, afterColon, if_neg (by simpa using fun hc => absurd hc h.1), ih h.2]

end Lines

namespace Numbering

variable {n : Numbering} {k : Nat} {l s : List Char} {ls : List (List Char)}

theorem write_append (front rest : List Char) :
    n.write (front ++ rest) = n.write front ++ (n.advance front).write rest := by
  induction front generalizing n with
  | nil => rfl
  | cons c front ih => simp [write, advance, ih]

theorem writeParts_eq (parts : List (List Char)) : n.writeParts parts = n.write parts.flatten := by
  induction parts generalizing n with
  | nil => rfl
  | cons part parts ih => rw [writeParts, ih, List.flatten_cons, write_append]

theorem inside_line (h : '\n' ∉ l) :
    (⟨k, false⟩ : Numbering).write l = l ∧ (⟨k, false⟩ : Numbering).advance l = ⟨k, false⟩ := by
  induction l with
  | nil => exact ⟨rfl, rfl⟩
  | cons c l ih =>
    rw [List.mem_cons, not_or] at h
    have hafter : (⟨k, false⟩ : Numbering).after c = ⟨k, false⟩ := by simp [after, Ne.symm h.1]
    obtain ⟨hw, ha⟩ := ih h.2
    simp [write, advance, label, hafter, hw, ha]

theorem write_last (h : '\n' ∉ l) (hne : l ≠ []) :
    (⟨k, true⟩ : Numbering).write l = lineLabel k ++ l := by
  cases l with
  | nil => exact absurd rfl hne
  | cons c l =>
    rw [List.mem_cons, not_or] at h
    have hafter : (⟨k, true⟩ : Numbering).after c = ⟨k + 1, false⟩ := by simp [after, Ne.symm h.1]
    rw [write, hafter, (inside_line h.2).1]
    rfl

theorem write_line (h : '\n' ∉ l) (rest : List Char) :
    (⟨k, true⟩ : Numbering).write (l ++ '\n' :: rest) =
      (lineLabel k ++ l) ++ '\n' :: (⟨k + 1, true⟩ : Numbering).write rest := by
  cases l with
  | nil => simp [write, label, after]
  | cons c l =>
    rw [List.mem_cons, not_or] at h
    have hafter : (⟨k, true⟩ : Numbering).after c = ⟨k + 1, false⟩ := by simp [after, Ne.symm h.1]
    obtain ⟨hw, ha⟩ := inside_line (k := k + 1) h.2
    rw [List.cons_append, write, hafter, write_append, hw, ha]
    simp [write, label, after]

theorem newline_notMem_lineLabel (k : Nat) : '\n' ∉ lineLabel k := by
  simp [lineLabel, notMem_rightAligned]

theorem lined_write (h : Lined s ls) :
    Lined ((⟨k, true⟩ : Numbering).write s) (ls.mapIdx fun i l => lineLabel (k + i) ++ l) := by
  have labelled {l : List Char} (k : Nat) (h : '\n' ∉ l) : '\n' ∉ lineLabel k ++ l := by
    simp [newline_notMem_lineLabel, h]
  induction h generalizing k with
  | nil => exact .nil
  | @last l inline nonempty =>
    rw [write_last inline nonempty]
    exact .last (labelled k inline) (by simp [nonempty])
  | @line l rest ls inline more ih =>
    have hnext : (ls.mapIdx fun i l => lineLabel (k + (i + 1)) ++ l) =
        ls.mapIdx fun i l => lineLabel (k + 1 + i) ++ l := by
      simp only [Nat.add_comm, Nat.add_left_comm]
    rw [write_line inline, List.mapIdx_cons, hnext, ← List.append_assoc]
    exact .line (labelled k inline) ih

end Numbering

theorem numbered_toList (parts : List String) :
    (numbered parts).toList = Numbering.write {} (String.join parts).toList := by
  rw [numbered, String.toList_ofList, Numbering.writeParts_eq, String.toList_join,
    List.flatMap_def]

theorem lines_numbered (parts : List String) :
    lines (numbered parts).toList =
      (lines (String.join parts).toList).mapIdx fun i l => lineLabel (i + 1) ++ l := by
  rw [numbered_toList, (Numbering.lined_write (lined_lines _)).lines_eq]
  simp only [Nat.add_comm]

theorem afterColon_labelled (k : Nat) (l : List Char) : afterColon (lineLabel k ++ l) = l := by
  rw [lineLabel, List.append_assoc]
  exact afterColon_label (notMem_rightAligned (by decide) (by decide)) l

/-- A text as it is shown with numbers: each of its lines is there, behind its number and unchanged,
so it can be read back. -/
structure ShownAs (text shown : List Char) : Prop where
  labelled : lines shown = (lines text).mapIdx fun i l =>
    (Nat.toDigits 10 (i + 1)).leftpad 6 ' ' ++ ':' :: ' ' :: l
  readsBack : (lines shown).flatMap afterColon = text

theorem numbered_shownAs (parts : List String) :
    ShownAs (String.join parts).toList (numbered parts).toList where
  labelled := by
    have labelled := lines_numbered parts
    simp only [lineLabel, rightAligned, decimal, List.append_assoc, List.cons_append,
      List.nil_append] at labelled
    exact labelled
  readsBack := by
    have labels_off (ls : List (List Char)) :
        (ls.mapIdx fun i l => lineLabel (i + 1) ++ l).map afterColon = ls := by
      rw [List.mapIdx_eq_zipIdx_map, List.map_map]
      simp only [Function.comp_def, afterColon_labelled, List.zipIdx_map_fst]
    rw [lines_numbered, List.flatMap_def, labels_off, (lined_lines _).flatten_eq]

/-- Numbered source text does not depend on its parts, only on the text that they make up. Line by
line it is this text, with the number of the line in front, so without the numbers it is the text
again. -/
theorem numbering_reads_back (parts : List String) :
    numbered parts = numbered [String.join parts] ∧
      let whole := (String.join parts).toList
      let shown := (numbered parts).toList
      Lined whole (lines whole) ∧
      lines shown = (lines whole).mapIdx (fun i l =>
        (Nat.toDigits 10 (i + 1)).leftpad 6 ' ' ++ ':' :: ' ' :: l) ∧
      (lines shown).length = (lines whole).length ∧
      (lines shown).flatMap afterColon = whole := by
  have same : numbered parts = numbered [String.join parts] := by
    apply String.toList_injective
    rw [numbered_toList, numbered_toList, String.join_cons, String.join_nil, String.append_empty]
  obtain ⟨labelled, readsBack⟩ := numbered_shownAs parts
  refine ⟨same, lined_lines _, labelled, ?_, readsBack⟩
  rw [labelled, List.length_mapIdx]

example : numbered ["#version 100\n", "a\nb", "", "c\n\nd"] =
    "     1: #version 100\n     2: a\n     3: bc\n     4: \n     5: d" := by decide

end GlPrograms.Text
