import SessionPlayback.Keystrokes
import Mathlib.Data.List.Nodup

/-!
Keystrokes written out. At each place the longest known sequence is named, although the table is
only searched for its first match. What is written never holds a raw control character, and a text
without them is written as it stands.
-/

namespace SessionPlayback.Keystrokes

/-- A control character that the log must not show. Tab and line feed are shown as they are. -/
def IsRaw (c : Char) : Prop := (c.toNat < 0x20 ∧ c ≠ '\t' ∧ c ≠ '\n') ∨ c = '\x7f'

instance : DecidablePred IsRaw := fun _ => inferInstanceAs (Decidable (_ ∨ _))

def Clean (text : List Char) : Prop := ∀ c ∈ text, ¬ IsRaw c

-- the instance is named: a search could take the characters one by one, and there are too many
instance : DecidablePred Clean := fun text => List.decidableBAll (¬ IsRaw ·) text

theorem Clean.append {front back : List Char} (hf : Clean front) (hb : Clean back) :
    Clean (front ++ back) := List.forall_mem_append.mpr ⟨hf, hb⟩

def Introduced : List Char → Prop
  | [] => False
  | c :: rest => IsRaw c ∧ Clean rest

instance : DecidablePred Introduced
  | [] => inferInstanceAs (Decidable False)
  | _ :: _ => inferInstanceAs (Decidable (_ ∧ _))

theorem Introduced.eq_cons {keys : List Char} (h : Introduced keys) :
    ∃ c rest, keys = c :: rest ∧ IsRaw c ∧ Clean rest := by
  cases keys with
  | nil => exact h.elim
  | cons c rest => exact ⟨c, rest, rfl, h⟩

theorem introduced_of_mem : ∀ entry ∈ charLabels, Introduced entry.1 := by decide

theorem clean_of_mem : ∀ entry ∈ charLabels, Clean entry.2 := by decide

/-- No sequence is the beginning of a later one. -/
theorem charLabels_pairwise :
    charLabels.Pairwise fun entry later => ¬ entry.1 <+: later.1 := by decide +kernel

/-- A sequence stands in the table once. -/
theorem eq_of_keys_eq {entry other : List Char × List Char} (he : entry ∈ charLabels)
    (ho : other ∈ charLabels) (h : entry.1 = other.1) : entry = other := by
  have hnodup : (charLabels.map Prod.fst).Nodup :=
    List.pairwise_map.mpr (charLabels_pairwise.imp fun hn hkeys => hn (by simp [hkeys]))
  exact List.inj_on_of_nodup_map hnodup he ho h

/-- The text begins with the sequence, and with no longer one of the table. -/
def Longest (entry : List Char × List Char) (text : List Char) : Prop :=
  entry ∈ charLabels ∧ entry.1 <+: text ∧
    ∀ other ∈ charLabels, other.1 <+: text → other.1.length ≤ entry.1.length

/-- The first match is the longest one: whatever else the text begins with stands further on in
the table and so does not continue the sequence that was found. -/
theorem longest_of_match? {text : List Char} {entry : List Char × List Char}
    (h : match? text = some entry) : Longest entry text := by
  obtain ⟨hp, front, back, heq, hfront⟩ := List.find?_eq_some_iff_append.mp h
  have hp : entry.1 <+: text := List.isPrefixOf_iff_prefix.mp hp
  have hback : ∀ later ∈ back, ¬ entry.1 <+: later.1 := by
    have hpairs := charLabels_pairwise
    rw [heq, List.pairwise_append, List.pairwise_cons] at hpairs
    exact hpairs.2.1.1
  refine ⟨by simp [heq], hp, fun other ho hother => ?_⟩
  rw [heq] at ho
  rcases List.mem_append.mp ho with ho | ho
  · have := hfront other ho
    simp [List.isPrefixOf_iff_prefix.mpr hother] at this
  rcases List.mem_cons.mp ho with rfl | ho
  · exact Nat.le_refl _
  rcases List.prefix_or_prefix_of_prefix hp hother with hle | hle
  · exact absurd hle (hback other ho)
  · exact hle.length_le

theorem match?_eq_none_iff {text : List Char} :
    match? text = none ↔ ∀ entry ∈ charLabels, ¬ entry.1 <+: text := by
  simp [match?, List.find?_eq_none]

theorem match?_eq_some_iff {text : List Char} {entry : List Char × List Char} :
    match? text = some entry ↔ Longest entry text := by
  refine ⟨longest_of_match?, fun h => ?_⟩
  cases hm : match? text with
  | none => exact absurd h.2.1 (match?_eq_none_iff.mp hm entry h.1)
  | some found =>
    obtain ⟨hmem, hp, hmax⟩ := longest_of_match? hm
    have hlen : found.1.length = entry.1.length :=
      Nat.le_antisymm (h.2.2 found hmem hp) (hmax entry h.1 h.2.1)
    have hkeys : found.1 = entry.1 :=
      (List.prefix_of_prefix_length_le hp h.2.1 (Nat.le_of_eq hlen)).eq_of_length hlen
    rw [eq_of_keys_eq hmem h.1 hkeys]

/-- What is written for a text, place by place: the label of the longest sequence that begins
there or, where none does, the one character. -/
inductive Written : List Char → List Char → Prop
  | nil : Written [] []
  | named {keys label rest shown : List Char} : Longest (keys, label) (keys ++ rest) →
      Written rest shown → Written (keys ++ rest) (label ++ shown)
  | single {c : Char} {rest shown : List Char} :
      (∀ entry ∈ charLabels, ¬ entry.1 <+: c :: rest) →
      Written rest shown → Written (c :: rest) (plain c ++ shown)

theorem escapeFrom_eq_drop (skip : Nat) (text : List Char) :
    escapeFrom skip text = escapeFrom 0 (text.drop skip) := by
  induction text generalizing skip with
  | nil => simp [escapeFrom]
  | cons c rest ih =>
    cases skip with
    | zero => rfl
    | succ skip => exact ih skip

theorem escapeFrom_of_longest {keys label rest : List Char}
    (h : Longest (keys, label) (keys ++ rest)) :
    escapeFrom 0 (keys ++ rest) = label ++ escapeFrom 0 rest := by
  have hm := match?_eq_some_iff.mpr h
  obtain ⟨c, keys, rfl, -⟩ := (introduced_of_mem _ h.1).eq_cons
  rw [List.cons_append] at hm ⊢
  rw [escapeFrom, hm]
  simp [escapeFrom_eq_drop keys.length]

theorem escapeFrom_of_none {c : Char} {rest : List Char}
    (h : ∀ entry ∈ charLabels, ¬ entry.1 <+: c :: rest) :
    escapeFrom 0 (c :: rest) = plain c ++ escapeFrom 0 rest := by
  rw [escapeFrom, match?_eq_none_iff.mpr h]

theorem written_escapeFrom (skip : Nat) (text : List Char) :
    Written (text.drop skip) (escapeFrom skip text) := by
  fun_induction escapeFrom skip text with
  | case1 => simpa using Written.nil
  | case2 skip c rest ih => simpa using ih
  | case3 c rest keys label hm ih =>
    have h := longest_of_match? hm
    obtain ⟨tail, htail⟩ := h.2.1
    obtain ⟨d, keys, rfl, -⟩ := (introduced_of_mem _ h.1).eq_cons
    obtain ⟨rfl, rfl⟩ := List.cons_eq_cons.mp htail
    rw [List.drop_zero, ← htail]
    refine .named (htail ▸ h) ?_
    simpa using ih
  | case4 c rest hm ih => exact .single (match?_eq_none_iff.mp hm) ih

theorem Written.eq_escapeFrom {text shown : List Char} (h : Written text shown) :
    shown = escapeFrom 0 text := by
  induction h with
  | nil => rfl
  | named hl _ ih => rw [escapeFrom_of_longest hl, ih]
  | single hn _ ih => rw [escapeFrom_of_none hn, ih]

/-- There is exactly one way to write a text out. -/
theorem written_iff {text shown : List Char} : Written text shown ↔ shown = escapeFrom 0 text :=
  ⟨Written.eq_escapeFrom, fun h => h ▸ written_escapeFrom 0 text⟩

/-- Codes are digits in brackets. -/
theorem plain_clean {c : Char} (hc : c ≠ '\x7f') : Clean (plain c) := by
  have hdigits : ∀ n < 0x20, Clean (Nat.toDigits 10 n) := by decide
  unfold plain
  split
  · rename_i hlow
    have hopen : Clean ['[', '\\'] := by decide
    have hclose : Clean [']'] := by decide
    exact (hopen.append (hdigits _ hlow.1)).append hclose
  · rename_i hlow
    intro d hd
    obtain rfl := List.mem_singleton.mp hd
    exact not_or.mpr ⟨hlow, hc⟩

theorem plain_of_not_isRaw {c : Char} (h : ¬ IsRaw c) : plain c = [c] :=
  if_neg (not_or.mp h).1

theorem Written.clean {text shown : List Char} (h : Written text shown) : Clean shown := by
  induction h with
  | nil => exact fun c hc => absurd hc List.not_mem_nil
  | named hl _ ih => exact (clean_of_mem _ hl.1).append ih
  | @single c rest _ hn _ ih =>
    have hdelete : c ≠ '\x7f' := by
      rintro rfl
      exact hn (['\x7f'], "[BACKSPACE]".toList) (by decide +kernel) ⟨rest, rfl⟩
    exact (plain_clean hdelete).append ih

/-- A text without raw control characters has no sequence of the table in it, as each of these
begins with one. -/
theorem Written.eq_self {text shown : List Char} (h : Written text shown) (hc : Clean text) :
    shown = text := by
  induction h with
  | nil => rfl
  | named hl _ _ =>
    obtain ⟨c, keys, rfl, hraw, -⟩ := (introduced_of_mem _ hl.1).eq_cons
    exact absurd hraw (hc c (by simp))
  | single _ _ ih =>
    rw [plain_of_not_isRaw (hc _ List.mem_cons_self), ih fun d hd => hc d (by simp [hd])]
    rfl

@[simp] theorem toList_escape (text : String) :
    (escape text).toList = escapeFrom 0 text.toList := by
  simp [escape]

@[simp] theorem escape_empty : escape "" = "" := by
  simp [← String.toList_inj, escapeFrom]

/-- What is written is free of raw control characters. Only a text that is free of them is written
as it stands, so writing it out a second time changes nothing. -/
theorem escape_readable (text : String) :
    Clean (escape text).toList ∧ (escape text = text ↔ Clean text.toList) ∧
      escape (escape text) = escape text := by
  have hclean (t : String) : Clean (escape t).toList := by
    rw [toList_escape]
    exact (written_escapeFrom 0 t.toList).clean
  have hself {t : String} (h : Clean t.toList) : escape t = t := by
    rw [← String.toList_inj, toList_escape]
    exact (written_escapeFrom 0 t.toList).eq_self h
  exact ⟨hclean text, ⟨fun h => h ▸ hclean text, hself⟩, hself (hclean text)⟩

end SessionPlayback.Keystrokes
