import GlPrograms.Text.Trailing
import Mathlib.Data.List.DropRight
import Mathlib.Data.List.Induction
import Mathlib.Data.List.Infix

namespace GlPrograms.Text

/-- A beginning of a log that could be kept of it: whole characters, no more bytes than the limit,
and no filler at the end. -/
structure Keepable (limit : Nat) (log kept : String) : Prop where
  beginning : kept.toList <+: log.toList
  fits : kept.utf8ByteSize ≤ limit
  ending : ∀ c ∈ kept.toList.getLast?, c ∉ ['\n', '\r', '\x00', ' ']

/-- Goes back from a byte until a character begins there or the text ends there. There is no answer
if it had to go below zero. -/
def boundaryFrom (s : String) : Nat → Option Nat
  | 0 => if (⟨0⟩ : String.Pos.Raw).isValid s then some 0 else none
  | n + 1 => if (⟨n + 1⟩ : String.Pos.Raw).isValid s then some (n + 1) else boundaryFrom s n

section Bytes

variable {room : Nat} {s t : List Char}

theorem utf8ByteSize_cons (c : Char) (s : List Char) :
    (String.ofList (c :: s)).utf8ByteSize = c.utf8Size + (String.ofList s).utf8ByteSize := by
  rw [← List.singleton_append, String.ofList_append, String.utf8ByteSize_append,
    ← String.singleton_eq_ofList, String.utf8ByteSize_singleton]

theorem utf8ByteSize_mono (h : t <+: s) :
    (String.ofList t).utf8ByteSize ≤ (String.ofList s).utf8ByteSize := by
  obtain ⟨rest, rfl⟩ := h
  rw [String.ofList_append, String.utf8ByteSize_append]
  exact Nat.le_add_right _ _

theorem takeBytes_isPrefix (room : Nat) (s : List Char) : takeBytes room s <+: s := by
  induction s generalizing room with
  | nil => exact List.nil_prefix
  | cons c s ih =>
    rw [takeBytes]
    split
    · exact List.cons_prefix_cons.2 ⟨rfl, ih _⟩
    · exact List.nil_prefix

theorem takeBytes_fits (room : Nat) (s : List Char) :
    (String.ofList (takeBytes room s)).utf8ByteSize ≤ room := by
  induction s generalizing room with
  | nil => exact Nat.zero_le room
  | cons c s ih =>
    rw [takeBytes]
    split
    · next hc =>
      have hrest := ih (room - c.utf8Size)
      rw [utf8ByteSize_cons]
      omega
    · exact Nat.zero_le room

theorem prefix_takeBytes (h : t <+: s) (hroom : (String.ofList t).utf8ByteSize ≤ room) :
    t <+: takeBytes room s := by
  obtain ⟨rest, rfl⟩ := h
  induction t generalizing room with
  | nil => exact List.nil_prefix
  | cons c t ih =>
    rw [utf8ByteSize_cons] at hroom
    rw [List.cons_append, takeBytes, if_pos (by omega)]
    exact List.cons_prefix_cons.2 ⟨rfl, ih (by omega)⟩

end Bytes

section Boundary

variable {s : String} {n : Nat}

theorem isValid_iff : (⟨n⟩ : String.Pos.Raw).isValid s = true ↔
    ∃ t, t <+: s.toList ∧ (String.ofList t).utf8ByteSize = n := by
  rw [String.Pos.Raw.isValid_eq_true_iff, String.Pos.Raw.isValid_iff_exists_append]
  constructor
  · rintro ⟨front, rest, rfl, hn⟩
    refine ⟨front.toList, by simp, ?_⟩
    rw [String.ofList_toList]
    exact (congrArg String.Pos.Raw.byteIdx hn).symm
  · rintro ⟨t, ⟨rest, hs⟩, rfl⟩
    refine ⟨String.ofList t, String.ofList rest, ?_, rfl⟩
    rw [← String.ofList_append, hs, String.ofList_toList]

theorem boundaryFrom_last (s : String) (n : Nat) :
    ∃ cut, boundaryFrom s n = some cut ∧ cut ≤ n ∧ (⟨cut⟩ : String.Pos.Raw).isValid s = true ∧
      ∀ m ≤ n, (⟨m⟩ : String.Pos.Raw).isValid s = true → m ≤ cut := by
  induction n with
  | zero =>
    have hzero : (⟨0⟩ : String.Pos.Raw).isValid s = true := isValid_iff.2 ⟨[], List.nil_prefix, rfl⟩
    exact ⟨0, by rw [boundaryFrom, if_pos hzero], Nat.le_refl 0, hzero, fun m hm _ => hm⟩
  | succ n ih =>
    rw [boundaryFrom]
    split
    · next hv => exact ⟨n + 1, rfl, Nat.le_refl _, hv, fun m hm _ => hm⟩
    · next hv =>
      obtain ⟨cut, hcut, hle, hvalid, hlast⟩ := ih
      refine ⟨cut, hcut, Nat.le_succ_of_le hle, hvalid, fun m hm hmv => ?_⟩
      rcases Nat.le_succ_iff.1 hm with hm | rfl
      · exact hlast m hm hmv
      · exact absurd hmv hv

theorem boundaryFrom_eq (s : String) (n : Nat) :
    boundaryFrom s n = some (String.ofList (takeBytes n s.toList)).utf8ByteSize := by
  obtain ⟨cut, hcut, hle, hvalid, hlast⟩ := boundaryFrom_last s n
  obtain ⟨t, ht, rfl⟩ := isValid_iff.1 hvalid
  have hfit := isValid_iff.2 ⟨_, takeBytes_isPrefix n s.toList, rfl⟩
  rw [hcut, Nat.le_antisymm (utf8ByteSize_mono (prefix_takeBytes ht hle))
    (hlast _ (takeBytes_fits n s.toList) hfit)]

end Boundary

section Trailing

variable {p : Char → Bool} {s t : List Char}

theorem dropTrailing_isPrefix (p : Char → Bool) (s : List Char) : dropTrailing p s <+: s :=
  List.rdropWhile_prefix p s

theorem ending_dropTrailing {c : Char} (hc : c ∈ (dropTrailing p s).getLast?) : ¬ p c := by
  obtain ⟨hne, rfl⟩ := List.mem_getLast?_eq_getLast hc
  exact List.rdropWhile_last_not p s hne

theorem prefix_dropTrailing (h : t <+: s) (ht : ∀ c ∈ t.getLast?, ¬ p c) :
    t <+: dropTrailing p s := by
  induction s using List.reverseRecOn with
  | nil => exact h
  | append_singleton s c ih =>
    by_cases hc : p c
    · have hdrop : dropTrailing p (s ++ [c]) = dropTrailing p s :=
        List.rdropWhile_concat_pos p s c hc
      rw [hdrop]
      rcases List.prefix_concat_iff.1 h with rfl | h
      · exact absurd hc (ht c (by simp))
      · exact ih h
    · have hkeep : dropTrailing p (s ++ [c]) = s ++ [c] := List.rdropWhile_concat_neg p s c hc
      rwa [hkeep]

end Trailing

section Excerpt

variable {limit more less : Nat} {log kept other : String}

theorem isFiller_iff {c : Char} : isFiller c ↔ c ∈ ['\n', '\r', '\x00', ' '] := by
  simp [isFiller, or_assoc]

theorem keepable_logExcerpt (limit : Nat) (log : String) :
    Keepable limit log (logExcerpt limit log) where
  beginning := by
    rw [logExcerpt, String.toList_ofList]
    exact (dropTrailing_isPrefix _ _).trans (takeBytes_isPrefix _ _)
  fits := (utf8ByteSize_mono (dropTrailing_isPrefix _ _)).trans (takeBytes_fits _ _)
  ending c hc := by
    rw [logExcerpt, String.toList_ofList] at hc
    exact fun hf => ending_dropTrailing hc (isFiller_iff.2 hf)

theorem Keepable.prefix_logExcerpt (h : Keepable limit log kept) :
    kept.toList <+: (logExcerpt limit log).toList := by
  rw [logExcerpt, String.toList_ofList]
  refine prefix_dropTrailing (prefix_takeBytes h.beginning ?_) fun c hc hf => ?_
  · rw [String.ofList_toList]
    exact h.fits
  · exact h.ending c hc (isFiller_iff.1 hf)

theorem logExcerpt_congr (h : ∀ kept, Keepable limit log kept ↔ Keepable more other kept) :
    logExcerpt limit log = logExcerpt more other := by
  have there := ((h _).1 (keepable_logExcerpt limit log)).prefix_logExcerpt
  have back := ((h _).2 (keepable_logExcerpt more other)).prefix_logExcerpt
  exact String.toList_injective (there.eq_of_length_le back.length_le)

theorem keepable_of_kept :
    Keepable less (logExcerpt limit log) kept ↔ Keepable (min less limit) log kept := by
  constructor
  · intro h
    have hsize : kept.utf8ByteSize ≤ (logExcerpt limit log).utf8ByteSize := by
      simpa using utf8ByteSize_mono h.beginning
    exact ⟨h.beginning.trans (keepable_logExcerpt limit log).beginning,
      Nat.le_min.2 ⟨h.fits, hsize.trans (keepable_logExcerpt limit log).fits⟩, h.ending⟩
  · intro h
    obtain ⟨hless, hlimit⟩ := Nat.le_min.1 h.fits
    exact ⟨Keepable.prefix_logExcerpt ⟨h.beginning, hlimit, h.ending⟩, hless, h.ending⟩

/-- What is kept of a log is the longest beginning of it that could be kept. It is what comes before
the last boundary up to the limit, without the filler, and the search for this boundary always ends.
To keep a part of what is kept is to keep it at once, and a larger limit keeps no less. -/
theorem excerpt_is_longest (limit : Nat) (log : String) :
    let kept := logExcerpt limit log
    Keepable limit log kept ∧
      (∀ other, Keepable limit log other → other.toList <+: kept.toList) ∧
      (∃ cut front, boundaryFrom log limit = some cut ∧ cut ≤ limit ∧
        front <+: log.toList ∧ (String.ofList front).utf8ByteSize = cut ∧
        kept = String.ofList (dropTrailing isFiller front)) ∧
      (∀ less, logExcerpt less kept = logExcerpt (min less limit) log) ∧
      ∀ more, limit ≤ more → kept.toList <+: (logExcerpt more log).toList := by
  intro kept
  have hkept := keepable_logExcerpt limit log
  refine ⟨hkept, fun other h => h.prefix_logExcerpt, ?_, fun less => ?_, fun more hle => ?_⟩
  · exact ⟨_, takeBytes limit log.toList, boundaryFrom_eq log limit, takeBytes_fits _ _,
      takeBytes_isPrefix _ _, rfl, rfl⟩
  · exact logExcerpt_congr fun _ => keepable_of_kept
  · have hmore : Keepable more log kept := ⟨hkept.beginning, hkept.fits.trans hle, hkept.ending⟩
    exact hmore.prefix_logExcerpt

end Excerpt

example : logExcerpt 8 "abcdefgé" = "abcdefg" := by decide

end GlPrograms.Text
