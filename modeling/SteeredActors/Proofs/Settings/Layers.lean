import Mathlib.Data.List.TakeWhile
import SteeredActors.Proofs.Toml.Files
import SteeredActors.Settings.Layers

/-!
# A file over no other settings

Names of lower-case letters are no paths, and are the same in any case. So a file that names nothing
twice sets what it says and nothing else.
-/

set_option autoImplicit false
set_option relaxedAutoImplicit false

namespace SteeredActors.RawSetting

open Toml (isWord mem_of_isWord lookup_of_not_mem)

section Words

variable {name : String} (word : isWord name = true)

include word

theorem toLower_of_isWord : name.toLower = name := by
  have small : ∀ c ∈ name.toList, c.toLower = c := by
    intro c mem
    rcases mem_of_isWord word mem with lower | rfl
    · change (decide (c.val ≥ 'a'.val) && decide (c.val ≤ 'z'.val)) = true at lower
      simp only [Bool.and_eq_true, decide_eq_true_eq] at lower
      have other : ¬ (c.val ≥ 'A'.val ∧ c.val ≤ 'Z'.val) := fun upper =>
        absurd (UInt32.le_trans lower.1 upper.2) (by decide)
      exact dif_neg other
    · rfl
  change name.map Char.toLower = name
  rw [← String.toList_inj, String.toList_map, List.map_congr_left small, List.map_id']

theorem path?_of_isWord : path? name = some (name, []) := by
  have inner : ∀ c ∈ name.toList, isPathChar c = true := by
    intro c mem
    rcases mem_of_isWord word mem with lower | rfl
    · simp [isPathChar, Toml.isAlphanum_of_isLower lower]
    · decide
  have taken : name.toList.takeWhile isPathChar = name.toList := List.takeWhile_eq_self_iff.2 inner
  have dropped : name.toList.dropWhile isPathChar = [] := List.dropWhile_eq_nil_iff.2 inner
  have first : pathName? name.toList = some (name, []) := by
    obtain ⟨c, cs, written, _⟩ := Toml.head_of_isWord word
    rw [pathName?, taken, dropped]
    split
    · next none => simp [written] at none
    · rw [String.ofList_toList]
  simp [path?, first, pathSteps?]

theorem putPath_of_isWord (target value : RawSetting) :
    putPath target name value = put name target value := by
  simp [putPath, path?_of_isWord word, putBelow]

end Words

theorem alter_of_lookup {name : String} {entries : List (String × RawSetting)}
    (new : entries.lookup name = none) (f : Option RawSetting → RawSetting) :
    alter name f entries = entries ++ [(name, f none)] := by
  induction entries with
  | nil => rfl
  | cons entry entries ih =>
    rw [List.lookup_cons] at new
    split at new
    · cases new
    · next other =>
      have different : entry.1 ≠ name := by
        rintro rfl
        simp at other
      simp [alter, different, ih new]

/-- A setting that is the same when it is merged with nothing. -/
def Whole (value : RawSetting) : Prop :=
  ∀ inner, value = .table inner → putAll (.table []) inner = .table inner

theorem put_of_lookup {name : String} (word : isWord name = true) {value : RawSetting}
    (whole : Whole value) {entries : List (String × RawSetting)} (new : entries.lookup name = none) :
    put name (.table entries) value = .table (entries ++ [(name, value)]) := by
  cases value with
  | table inner =>
    have merged := whole inner rfl
    simp [put, change, toLower_of_isWord word, RawSetting.entries, alter_of_lookup new, merged]
  | _ => simp [put, change, toLower_of_isWord word, RawSetting.entries, alter_of_lookup new]

/-- New names are put after the others. -/
theorem putAll_of_nodup {incoming : List (String × RawSetting)}
    (words : ∀ entry ∈ incoming, isWord entry.1 = true) (whole : ∀ entry ∈ incoming, Whole entry.2)
    {entries : List (String × RawSetting)} (distinct : ((entries ++ incoming).map Prod.fst).Nodup) :
    putAll (.table entries) incoming = .table (entries ++ incoming) := by
  induction incoming generalizing entries with
  | nil => simp [putAll]
  | cons entry incoming ih =>
    have fresh : entry.1 ∉ entries.map Prod.fst := by
      rw [List.map_append, List.nodup_append] at distinct
      exact fun mem => distinct.2.2 _ mem entry.1 (by simp) rfl
    have first := put_of_lookup (words entry List.mem_cons_self) (whole entry List.mem_cons_self)
      (lookup_of_not_mem fresh)
    have others : putAll (.table (entries ++ [entry])) incoming =
        .table (entries ++ [entry] ++ incoming) :=
      ih (fun e mem => words e (List.mem_cons_of_mem _ mem))
        (fun e mem => whole e (List.mem_cons_of_mem _ mem)) (by simpa using distinct)
    rw [putAll, first, others, List.append_assoc, List.singleton_append]

theorem overlayFile_eq_putAll {entries : Toml.Entries}
    (words : ∀ entry ∈ ofEntries entries, isWord entry.1 = true) (target : RawSetting) :
    overlayFile target entries = putAll target (ofEntries entries) := by
  unfold overlayFile
  generalize ofEntries entries = incoming at words ⊢
  induction incoming generalizing target with
  | nil => rfl
  | cons entry incoming ih =>
    have word := words entry List.mem_cons_self
    rw [List.foldl_cons, ih _ fun e mem => words e (List.mem_cons_of_mem _ mem)]
    change (putPath target entry.1 entry.2).putAll incoming = _
    rw [putPath_of_isWord word, putAll]

end SteeredActors.RawSetting
