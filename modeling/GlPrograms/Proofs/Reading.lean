import GlPrograms.Proofs.Report
import Mathlib.Data.List.TakeWhile

namespace GlPrograms

section Lists

variable {α : Type} [DecidableEq α] {a : α} {l : List α}

theorem takeWhile_until (h : a ∉ l) (rest : List α) : (l ++ a :: rest).takeWhile (· ≠ a) = l := by
  have hl : ∀ b ∈ l, decide (b ≠ a) := fun b hb => decide_eq_true fun he => h (he ▸ hb)
  rw [List.takeWhile_append_of_pos hl, List.takeWhile_cons_of_neg (by simp), List.append_nil]

theorem dropWhile_until (h : a ∉ l) (rest : List α) :
    (l ++ a :: rest).dropWhile (· ≠ a) = a :: rest := by
  have hl : ∀ b ∈ l, decide (b ≠ a) := fun b hb => decide_eq_true fun he => h (he ▸ hb)
  rw [List.dropWhile_append_of_pos hl, List.dropWhile_cons_of_neg (by simp)]

def afterLast (a : α) (l : List α) : List α := (l.reverse.takeWhile (· ≠ a)).reverse

theorem afterLast_append (front : List α) (h : a ∉ l) : afterLast a (front ++ a :: l) = l := by
  rw [afterLast, List.reverse_append, List.reverse_cons, List.append_assoc, List.singleton_append,
    takeWhile_until (by simpa using h), List.reverse_reverse]

end Lists

namespace Text

def unlines (ls : List (List Char)) : List Char := ls.flatMap (· ++ ['\n'])

theorem splitOn_unlines {ls : List (List Char)} (h : ∀ l ∈ ls, '\n' ∉ l) :
    (unlines ls).splitOn '\n' = ls ++ [[]] := by
  induction ls with
  | nil => rfl
  | cons l ls ih =>
    have hs : unlines (l :: ls) = l ++ '\n' :: unlines ls := by simp [unlines]
    rw [hs, List.splitOn_append_cons_self_of_not_mem (h l (by simp)),
      ih fun l hl => h l (by simp [hl]), List.cons_append]

theorem isDigit_of_mem_decimal {n : Nat} {c : Char} (h : c ∈ decimal n) : c.isDigit :=
  Nat.isDigit_of_mem_toDigits (by decide) (by decide) h

theorem notMem_decimal {n : Nat} {c : Char} (h : c.isDigit = false) : c ∉ decimal n := fun hc => by
  simp [isDigit_of_mem_decimal hc] at h

theorem rightAligned_eq (width n : Nat) :
    ∃ k, rightAligned width n = List.replicate k ' ' ++ decimal n :=
  ⟨_, rfl⟩

theorem notMem_rightAligned {width n : Nat} {c : Char} (hb : c ≠ ' ') (hd : c.isDigit = false) :
    c ∉ rightAligned width n := by
  obtain ⟨k, hk⟩ := rightAligned_eq width n
  rw [hk, List.mem_append, List.mem_replicate]
  rintro (⟨-, h⟩ | h)
  · exact hb h
  · exact notMem_decimal hd h

end Text

namespace Report

open GlPrograms.Action
open Text (decimal rightAligned unlines)

-- The two fixed lines are compared as wholes, and never spelled out by unification.

@[irreducible]
def titleLine : List Char := "Cached GLSL programs:".toList

@[irreducible]
def columnsLine : List Char := "    id: (used secs ago) description +/-flags".toList

def totalLine (count : Nat) : List Char :=
  ['T', 'o', 't', 'a', 'l', ':', ' '] ++ decimal count
    ++ [' ', 'p', 'r', 'o', 'g', 'r', 'a', 'm', 's', '.']

structure Shown where
  id : UInt32
  age : List Char
  key : Key
deriving DecidableEq

def readNumber (digits : List Char) : Option Nat :=
  if digits ≠ [] ∧ digits.all Char.isDigit then some (Nat.ofDigitChars 10 digits 0) else none

def readLine (l : List Char) : Option Shown := do
  let id ← readNumber ((l.takeWhile (· ≠ ':')).dropWhile (· = ' '))
  let inside := (l.dropWhile (· ≠ '(')).drop 1
  let description := (inside.dropWhile (· ≠ ')')).drop 2
  let key ← Key.all.find? (·.description.toList = description)
  return ⟨UInt32.ofNat id, inside.takeWhile (· ≠ ')'), key⟩

def readTotal (l : List Char) : Option Nat :=
  if ['T', 'o', 't', 'a', 'l', ':', ' '].isPrefixOf l then
    readNumber ((l.drop 7).takeWhile (· ≠ ' '))
  else none

/-- The total is on the last line, and nothing but a line feed follows it. -/
def readLines : List (List Char) → Option (List Shown × Nat)
  | [] => none
  | l :: ls =>
      match readTotal l with
      | some count => if ls = [[]] then some ([], count) else none
      | none => do
          let shown ← readLine l
          let (rest, count) ← readLines ls
          return (shown :: rest, count)

/-- The programs that a report shows, and their number as it is printed. -/
def read (text : String) : Option (List Shown × Nat) :=
  match afterLast titleLine (text.toList.splitOn '\n') with
  | [] => none
  | l :: ls => if l = columnsLine then readLines ls else none

theorem readNumber_decimal (n : Nat) : readNumber (decimal n) = some n := by
  have digits : (decimal n).all Char.isDigit :=
    List.all_eq_true.2 fun c hc => Text.isDigit_of_mem_decimal hc
  rw [readNumber, if_pos ⟨Nat.toDigits_ne_nil, digits⟩, decimal, Nat.ofDigitChars_ten_toDigits]

theorem readNumber_rightAligned (width n : Nat) :
    readNumber ((rightAligned width n).dropWhile (· = ' ')) = some n := by
  obtain ⟨k, hk⟩ := Text.rightAligned_eq width n
  rw [hk, List.dropWhile_append_of_pos (by simp)]
  have hd : (decimal n).dropWhile (· = ' ') = decimal n := by
    refine List.dropWhile_eq_self_iff.2 fun hl => ?_
    have hc := Text.isDigit_of_mem_decimal (List.getElem_mem hl)
    intro hb
    simp at hb
    simp [hb] at hc
  rw [hd, readNumber_decimal]

def body (id : UInt32) (age : List Char) (key : Key) : List Char :=
  rightAligned 6 id.toNat ++ ':' :: ' ' :: '(' :: (age ++ ')' :: ' ' :: key.description.toList)

theorem line_toList (id : UInt32) (age : Binary64) (key : Key) :
    (line id age key).toList = body id age.oneDecimal key ++ ['\n'] := by
  simp [line, body]

theorem find_description (key : Key) :
    Key.all.find? (·.description.toList = key.description.toList) = some key := by
  cases hf : Key.all.find? (·.description.toList = key.description.toList) with
  | none =>
    have hn := List.find?_eq_none.1 hf key (Key.mem_all key)
    simp at hn
  | some other =>
    have hd : other.description.toList = key.description.toList := by simpa using List.find?_some hf
    rw [Key.description_injective (String.toList_injective hd)]

theorem readLine_body (id : UInt32) {age : List Char} (key : Key) (ha : ')' ∉ age) :
    readLine (body id age key) = some ⟨id, age, key⟩ := by
  have hcolon : ':' ∉ rightAligned 6 id.toNat := Text.notMem_rightAligned (by decide) (by decide)
  have hparen : '(' ∉ rightAligned 6 id.toNat ++ [':', ' '] := by
    simp [Text.notMem_rightAligned]
  have hsplit : body id age key =
      (rightAligned 6 id.toNat ++ [':', ' ']) ++
        '(' :: (age ++ ')' :: ' ' :: key.description.toList) := by
    simp [body]
  have hid : (body id age key).takeWhile (· ≠ ':') = rightAligned 6 id.toNat :=
    takeWhile_until hcolon _
  have hinside : (body id age key).dropWhile (· ≠ '(') =
      '(' :: (age ++ ')' :: ' ' :: key.description.toList) := by
    rw [hsplit]
    exact dropWhile_until hparen _
  simp only [readLine, hid, hinside, readNumber_rightAligned, List.drop_succ_cons,
    List.drop_zero, takeWhile_until ha, dropWhile_until ha, find_description]
  simp

theorem notMem_oneDecimal {age : Binary64} {c : Char} (hp : c ≠ '.') (hd : c.isDigit = false) :
    c ∉ age.oneDecimal := by
  simp [Binary64.oneDecimal, Text.notMem_decimal hd, hp]

theorem body_head (id : UInt32) (age : List Char) (key : Key) :
    ∃ c rest, body id age key = c :: rest ∧ (c = ' ' ∨ c.isDigit) := by
  obtain ⟨k, hk⟩ := Text.rightAligned_eq 6 id.toNat
  cases k with
  | zero =>
    cases hd : decimal id.toNat with
    | nil => exact absurd hd Nat.toDigits_ne_nil
    | cons c cs =>
      refine ⟨c, _, by rw [body, hk, hd]; rfl,
        .inr (Text.isDigit_of_mem_decimal (n := id.toNat) ?_)⟩
      simp [hd]
  | succ k => exact ⟨' ', _, by rw [body, hk]; rfl, .inl rfl⟩

theorem readTotal_body (id : UInt32) (age : List Char) (key : Key) :
    readTotal (body id age key) = none := by
  obtain ⟨c, rest, hb, hc⟩ := body_head id age key
  have hne : c ≠ 'T' := by
    rintro rfl
    simp at hc
  rw [hb, readTotal, if_neg]
  simpa using fun h => absurd h.symm hne

theorem readTotal_totalLine (count : Nat) : readTotal (totalLine count) = some count := by
  have hb : ' ' ∉ decimal count := Text.notMem_decimal (by decide)
  have hd : (totalLine count).drop 7 =
      decimal count ++ ' ' :: ['p', 'r', 'o', 'g', 'r', 'a', 'm', 's', '.'] := rfl
  rw [readTotal, if_pos (by simp [totalLine]), hd, takeWhile_until hb, readNumber_decimal]

def shown (now : Instant) (es : List Entry) (ids : List UInt32) : List Shown :=
  es.zipWith (fun e id => ⟨id, (e.lastUsed.age now).oneDecimal, e.key⟩) ids

def Shown.line (s : Shown) : List Char := body s.id s.age s.key

theorem readLines_shown (shown : List Shown) (count : Nat) (h : ∀ s ∈ shown, ')' ∉ s.age) :
    readLines (shown.map Shown.line ++ [totalLine count, []]) = some (shown, count) := by
  induction shown with
  | nil => simp only [List.map_nil, List.nil_append, readLines, readTotal_totalLine, if_true]
  | cons s rest ih =>
    rw [List.map_cons, List.cons_append, readLines, Shown.line, readTotal_body,
      readLine_body s.id s.key (h s (by simp)), ih fun s hs => h s (by simp [hs])]
    rfl

def sectionLines (shown : List Shown) (count : Nat) : List (List Char) :=
  titleLine :: columnsLine :: (shown.map Shown.line ++ [totalLine count])

theorem title_toList : title.toList = titleLine ++ ['\n'] := by decide +kernel

theorem columns_toList : columns.toList = columnsLine ++ ['\n'] := by decide +kernel

theorem total_toList (count : Nat) : (total count).toList = totalLine count ++ ['\n'] := by
  simp [total, totalLine]

/-- The preamble is not evaluated: of its text only the end matters. -/
theorem preamble_toList : ∃ front, preamble.toList = front ++ ['\n'] := by
  have ended (s : String) : (s ++ "\n").toList = s.toList ++ ['\n'] := by simp
  exact ⟨_, ended _⟩

theorem lines_toList (now : Instant) (es : List Entry) (ids : List UInt32) :
    (String.join (lines now es ids)).toList = unlines ((shown now es ids).map Shown.line) := by
  rw [String.toList_join]
  induction es generalizing ids with
  | nil => rfl
  | cons e es ih =>
    cases ids with
    | nil => rfl
    | cons id ids =>
      have hi := ih ids
      simp only [lines, shown, unlines] at hi
      simp only [lines, shown, unlines, List.zipWith_cons_cons, List.flatMap_cons, List.map_cons,
        hi, line_toList, Shown.line]

theorem text_toList (now : Instant) (es : List Entry) (ids : List UInt32) :
    ∃ front, (text now es ids).toList =
      front ++ '\n' :: unlines (sectionLines (shown now es ids) es.length) := by
  obtain ⟨front, hfront⟩ := preamble_toList
  refine ⟨front, ?_⟩
  rw [text, String.toList_append, String.toList_append, String.toList_append, String.toList_append,
    hfront, title_toList, columns_toList, lines_toList, total_toList]
  simp [unlines, sectionLines]

theorem shown_age {now : Instant} {es : List Entry} {ids : List UInt32} {s : Shown}
    (h : s ∈ shown now es ids) : ∃ age : Binary64, s.age = age.oneDecimal := by
  obtain ⟨i, hi, rfl⟩ := List.mem_iff_getElem.1 h
  simp only [shown, List.getElem_zipWith]
  exact ⟨_, rfl⟩

theorem Shown.line_inline {s : Shown} {age : Binary64} (h : s.age = age.oneDecimal) :
    '\n' ∉ s.line := by
  rw [line, body, h]
  simp [Text.notMem_rightAligned, notMem_oneDecimal, s.key.newline_notMem_description]

theorem Shown.line_head (s : Shown) {c : Char} (hb : c ≠ ' ') (hd : c.isDigit = false) :
    s.line.head? ≠ some c := by
  obtain ⟨c', rest, hl, hc⟩ := body_head s.id s.age s.key
  rw [line, hl, List.head?_cons]
  rintro ⟨⟩
  rcases hc with rfl | hc
  · exact hb rfl
  · simp [hd] at hc

theorem sectionLines_inline {shown : List Shown} {count : Nat}
    (h : ∀ s ∈ shown, ∃ age : Binary64, s.age = age.oneDecimal) :
    ∀ l ∈ sectionLines shown count, '\n' ∉ l := by
  have hdigit : '\n' ∉ decimal count := Text.notMem_decimal (by decide)
  simp only [sectionLines, List.mem_cons, List.mem_append, List.mem_map, List.not_mem_nil, or_false]
  rintro l (rfl | rfl | ⟨s, hs, rfl⟩ | rfl)
  · decide +kernel
  · decide +kernel
  · obtain ⟨age, ha⟩ := h s hs
    exact Shown.line_inline ha
  · simp [totalLine, hdigit]

theorem titleLine_notMem (shown : List Shown) (count : Nat) :
    titleLine ∉ columnsLine :: (shown.map Shown.line ++ [totalLine count, []]) := by
  have hhead : titleLine.head? = some 'C' := by decide +kernel
  have hcolumns : titleLine ≠ columnsLine := by decide +kernel
  simp only [List.mem_cons, List.mem_append, List.mem_map, List.not_mem_nil, or_false]
  rintro (h | ⟨s, -, h⟩ | h | h)
  · exact hcolumns h
  · exact s.line_head (by decide) (by decide) (h ▸ hhead)
  · rw [h] at hhead
    simp [totalLine] at hhead
  · rw [h] at hhead
    cases hhead

theorem read_section {now : Instant} {es : List Entry} {ids : List UInt32} {message : String}
    (h : ∃ front, message.toList =
      front ++ '\n' :: unlines (sectionLines (shown now es ids) es.length)) :
    read message = some (shown now es ids, es.length) := by
  obtain ⟨front, hf⟩ := h
  have hl : ∀ l ∈ sectionLines (shown now es ids) es.length, '\n' ∉ l :=
    sectionLines_inline fun s => shown_age
  have hs : message.toList.splitOn '\n' =
      front.splitOn '\n' ++ (sectionLines (shown now es ids) es.length ++ [[]]) := by
    rw [hf, List.splitOn_append_cons_self, Text.splitOn_unlines hl]
  have ha : ∀ s ∈ shown now es ids, ')' ∉ s.age := by
    intro s hs
    obtain ⟨age, ha⟩ := shown_age hs
    exact ha ▸ notMem_oneDecimal (by decide) (by decide)
  have hsection := afterLast_append (front.splitOn '\n')
    (titleLine_notMem (shown now es ids) es.length)
  rw [read, hs, sectionLines]
  simp only [List.cons_append, List.append_assoc, List.nil_append] at hsection ⊢
  rw [hsection]
  simp only [if_true]
  exact readLines_shown _ _ ha

theorem read_text (now : Instant) (es : List Entry) (ids : List UInt32) :
    read (text now es ids) = some (shown now es ids, es.length) :=
  read_section (text_toList now es ids)

theorem read_append_text (front : String) (now : Instant) (es : List Entry) (ids : List UInt32) :
    read (front ++ text now es ids) = some (shown now es ids, es.length) := by
  obtain ⟨rest, hr⟩ := text_toList now es ids
  exact read_section ⟨front.toList ++ rest, by rw [String.toList_append, hr, List.append_assoc]⟩

def answered (events : List (Event Gl)) : List UInt32 :=
  events.filterMap fun
    | .called (.programId _) id => some id
    | _ => none

theorem answered_zipWith {es : List Entry} {ids : List UInt32} (h : ids.length = es.length) :
    answered (es.zipWith (fun e id => .called (.programId e.program) id) ids) = ids := by
  induction es generalizing ids with
  | nil =>
    obtain rfl := List.length_eq_zero_iff.1 h
    rfl
  | cons e es ih =>
    cases ids with
    | nil => cases h
    | cons id ids => exact congrArg (id :: ·) (ih (Nat.succ.inj h))

theorem map_shown (now : Instant) {es : List Entry} {ids : List UInt32}
    (h : ids.length = es.length) :
    (shown now es ids).map (fun s => (s.id, s.key)) = ids.zip (es.map Entry.key) ∧
      (shown now es ids).map Shown.age = es.map fun e => (e.lastUsed.age now).oneDecimal := by
  induction es generalizing ids with
  | nil =>
    obtain rfl := List.length_eq_zero_iff.1 h
    exact ⟨rfl, rfl⟩
  | cons e es ih =>
    cases ids with
    | nil => cases h
    | cons id ids =>
      obtain ⟨hk, ha⟩ := ih (Nat.succ.inj h)
      exact ⟨congrArg (_ :: ·) hk, congrArg (_ :: ·) ha⟩

variable {c : Cache} {listener : Listener} {now : Instant} {events : List (Event Gl)}
  {reply : Reply}

theorem report_exit (h : (c.inspect listener (.report now none)).Plays events reply) :
    reply = .report (some (text now c.entries (answered events))) ∧
      (answered events).length = c.size ∧
      events = c.entries.zipWith (fun e id => .called (.programId e.program) id)
        (answered events) := by
  obtain ⟨s, hs, rfl⟩ := plays_bind_pure.1 h
  obtain ⟨ids, hlength, rfl, rfl⟩ := writeReport_exit hs
  rw [answered_zipWith hlength]
  exact ⟨rfl, hlength, rfl⟩

/-- A report has one line for each entry, in the order of the cache, and the reader finds in it the
numbers that the GL gave, the ages and the keys, and the size of the cache. So reports with the same
text are about the same numbers and keys, and show the same ages, whatever else is different. -/
theorem reports_read_back (h : (c.inspect listener (.report now none)).Plays events reply) :
    let ids := answered events
    ∃ text, reply = .report (some text) ∧ ids.length = c.size ∧
      events = c.entries.zipWith (fun e id => .called (.programId e.program) id) ids ∧
      text = preamble ++ title ++ columns
        ++ String.join (c.entries.zipWith (fun e id => line id (e.lastUsed.age now) e.key) ids)
        ++ total c.size ∧
      read text = some
        (c.entries.zipWith (fun e id => ⟨id, (e.lastUsed.age now).oneDecimal, e.key⟩) ids, c.size) ∧
      ∀ (c' : Cache) (listener' : Listener) (now' : Instant) (events' : List (Event Gl)),
        (c'.inspect listener' (.report now' none)).Plays events' (.report (some text)) →
          (answered events').zip c'.keys = ids.zip c.keys ∧
            c'.entries.map (fun e => (e.lastUsed.age now').oneDecimal) =
              c.entries.map fun e => (e.lastUsed.age now).oneDecimal := by
  intro ids
  obtain ⟨hreply, hlength, hevents⟩ := report_exit h
  refine ⟨_, hreply, hlength, hevents, rfl, read_text now c.entries ids, ?_⟩
  intro c' listener' now' events' h'
  obtain ⟨hreply', hlength', -⟩ := report_exit h'
  -- The reader finds the same in both reports, since it reads the same text.
  have hread := congrArg read (Option.some.inj (Reply.report.inj hreply'))
  rw [read_text, read_text] at hread
  have hshown : shown now c.entries ids = shown now' c'.entries (answered events') :=
    congrArg Prod.fst (Option.some.inj hread)
  obtain ⟨hkeys, hages⟩ := map_shown now hlength
  obtain ⟨hkeys', hages'⟩ := map_shown now' hlength'
  rw [hshown] at hkeys hages
  exact ⟨hkeys'.symm.trans hkeys, hages'.symm.trans hages⟩

/-- The largest number takes more room than its column has. -/
def early : Cache where
  settings := {}
  entries := [
    ⟨⟨.rgba, true⟩, ⟨4294967295⟩, {}, ⟨1500000000⟩⟩,
    ⟨⟨.solid, false⟩, ⟨7⟩, {}, ⟨9000000000⟩⟩]
  distinct := by decide

def late : Cache where
  settings := { scopeName := "late" }
  entries := [
    ⟨⟨.rgba, true⟩, ⟨4294967295⟩, { alpha := some 3 }, ⟨2500000000⟩⟩,
    ⟨⟨.solid, false⟩, ⟨7⟩, {}, ⟨20000000000⟩⟩]
  distinct := by decide

theorem reports_read_back_later :
    ∃ text events events', (early.inspect {} (.report ⟨4000000000⟩ none)).Plays events
        (.report (some text)) ∧
      (late.inspect {} (.report ⟨5000000000⟩ none)).Plays events' (.report (some text)) ∧
      read text = some ([⟨4294967295, ['2', '.', '5'], ⟨.rgba, true⟩⟩,
        ⟨7, ['0', '.', '0'], ⟨.solid, false⟩⟩], 2) ∧
      (answered events').zip late.keys = (answered events).zip early.keys := by
  have first := Action.plays_run Device.answer (early.inspect {} (.report ⟨4000000000⟩ none)) {}
  have second := Action.plays_run Device.answer (late.inspect {} (.report ⟨5000000000⟩ none)) {}
  obtain ⟨text, hreply, -, -, htext, hread, again⟩ := reports_read_back first
  obtain ⟨hreply', -, -⟩ := report_exit second
  have hids : answered ((early.inspect {} (.report ⟨4000000000⟩ none)).run Device.answer {}).2.1 =
      [4294967295, 7] := by decide +kernel
  have hids' : answered ((late.inspect {} (.report ⟨5000000000⟩ none)).run Device.answer {}).2.1 =
      [4294967295, 7] := by decide +kernel
  have hlines : lines ⟨5000000000⟩ late.entries [4294967295, 7] =
      lines ⟨4000000000⟩ early.entries [4294967295, 7] := by decide +kernel
  have hsame : Report.text ⟨5000000000⟩ late.entries [4294967295, 7] = text := by
    rw [htext, hids, Report.text, hlines]
    rfl
  rw [hids', hsame] at hreply'
  rw [hreply] at first
  rw [hreply'] at second
  refine ⟨text, _, _, first, second, ?_, (again late {} _ _ second).1⟩
  rw [hread, hids]
  decide +kernel

end Report

end GlPrograms
