import SessionPlayback.Proofs.Event.Output
import SessionPlayback.Proofs.Text.Utf8

/-!
Keystrokes that arrive in parts. Written out part by part they read as if they had come at once,
exactly if no known sequence begins in one part and ends in a later one.
-/

namespace SessionPlayback

namespace Keystrokes

/-- A known sequence is cut by the border between two texts: it begins in the first one and ends
in the second. -/
def Straddles (front back : List Char) : Prop :=
  ∃ entry ∈ charLabels, ∃ start rest, start ≠ [] ∧ rest ≠ [] ∧ entry.1 = start ++ rest ∧
    start <:+ front ∧ rest <+: back

variable {front back text : List Char} {entry : List Char × List Char}

theorem Straddles.append_left (h : Straddles text back) (front : List Char) :
    Straddles (front ++ text) back := by
  obtain ⟨entry, he, start, rest, hs, hr, heq, hfront, hback⟩ := h
  exact ⟨entry, he, start, rest, hs, hr, heq, hfront.trans (List.suffix_append _ _), hback⟩

/-- Only the first character of a sequence is a raw control character. -/
theorem not_straddles_of_isRaw {c : Char} (hc : IsRaw c) : ¬ Straddles front (c :: back) := by
  rintro ⟨entry, he, start, rest, hs, hr, heq, -, hback⟩
  obtain ⟨first, start, rfl⟩ := List.exists_cons_of_ne_nil hs
  obtain ⟨second, rest, rfl⟩ := List.exists_cons_of_ne_nil hr
  obtain rfl : second = c := (List.cons_prefix_cons.mp hback).1
  have hi := introduced_of_mem entry he
  rw [heq] at hi
  exact hi.2 second (by simp) hc

/-- What follows a text does not add to the sequences it begins with, unless it completes one. -/
theorem prefix_of_not_straddles (hb : ¬ Straddles text back) (hne : text ≠ [])
    (he : entry ∈ charLabels) (hp : entry.1 <+: text ++ back) : entry.1 <+: text := by
  rcases Text.prefix_append_cases hp with hp | ⟨rest, heq, hrest⟩
  · exact hp
  · by_cases hr : rest = []
    · simp [heq, hr]
    · exact absurd ⟨entry, he, text, rest, hne, hr, heq, List.suffix_refl _, hrest⟩ hb

theorem Longest.append (h : Longest entry text) (hne : text ≠ []) (hb : ¬ Straddles text back) :
    Longest entry (text ++ back) :=
  ⟨h.1, h.2.1.trans (List.prefix_append _ _), fun other ho hother =>
    h.2.2 other ho (prefix_of_not_straddles hb hne ho hother)⟩

/-- Both texts written out make up both in a row, place by place. -/
theorem Written.append {shown more : List Char} (h : Written text shown) (hm : Written back more)
    (hb : ¬ Straddles text back) : Written (text ++ back) (shown ++ more) := by
  induction h with
  | nil => exact hm
  | @named keys label rest shown hl _ ih =>
    have hne : keys ++ rest ≠ [] := by
      obtain ⟨c, keys, rfl, -⟩ := (introduced_of_mem _ hl.1).eq_cons
      simp
    have hlong := hl.append hne hb
    have hrest := ih fun hs => hb (hs.append_left keys)
    rw [List.append_assoc] at hlong ⊢
    rw [List.append_assoc]
    exact .named hlong hrest
  | @single c rest shown hn _ ih =>
    have hrest := ih fun hs => hb (hs.append_left [c])
    rw [List.append_assoc]
    refine .single (fun entry he hp => ?_) hrest
    exact hn entry he (prefix_of_not_straddles hb (by simp) he hp)

theorem escapeFrom_append (hb : ¬ Straddles front back) :
    escapeFrom 0 (front ++ back) = escapeFrom 0 front ++ escapeFrom 0 back :=
  (written_iff.mp ((written_escapeFrom 0 front).append (written_escapeFrom 0 back) hb)).symm

/-- The first character of a sequence is in the table by itself. -/
theorem take_one_mem : ∀ entry ∈ charLabels, ∃ lead ∈ charLabels, lead.1 = entry.1.take 1 := by
  decide +kernel

/-- The label of a sequence and that of its beginning differ before either of them is over. -/
theorem labels_differ : ∀ entry ∈ charLabels, ∀ inner ∈ charLabels,
    inner.1 <+: entry.1 → inner.1.length < entry.1.length →
      ¬ (inner.2 <+: entry.2 ∨ entry.2 <+: inner.2) := by
  decide +kernel

theorem exists_longest (he : entry ∈ charLabels) (hp : entry.1 <+: text) :
    ∃ found, Longest found text := by
  cases hm : match? text with
  | none => exact absurd hp (match?_eq_none_iff.mp hm entry he)
  | some found => exact ⟨found, longest_of_match? hm⟩

theorem Longest.label_prefix (h : Longest entry text) : entry.2 <+: escapeFrom 0 text := by
  obtain ⟨keys, label⟩ := entry
  obtain ⟨rest, rfl⟩ := h.2.1
  rw [escapeFrom_of_longest h]
  exact List.prefix_append _ _

/-- The beginning of a sequence is written out by another label than the whole of it. -/
theorem escapeFrom_cut {start rest : List Char} (he : entry ∈ charLabels) (hs : start ≠ [])
    (hr : rest ≠ []) (heq : entry.1 = start ++ rest) (hback : rest <+: back) :
    ¬ escapeFrom 0 start <+: escapeFrom 0 (start ++ back) := by
  intro hp
  obtain ⟨lead, hlead, hone⟩ := take_one_mem entry he
  have hstart : lead.1 <+: start := by
    obtain ⟨c, start, rfl⟩ := List.exists_cons_of_ne_nil hs
    simp [hone, heq]
  have hwhole : entry.1 <+: start ++ back := by
    rw [heq]
    exact (List.prefix_append_right_inj start).mpr hback
  obtain ⟨inner, hinner⟩ := exists_longest hlead hstart
  obtain ⟨outer, houter⟩ := exists_longest he hwhole
  have hlt : inner.1.length < outer.1.length := by
    have h₁ := hinner.2.1.length_le
    have h₂ := houter.2.2 entry he hwhole
    have h₃ := List.length_pos_iff.mpr hr
    rw [heq, List.length_append] at h₂
    omega
  have hkeys : inner.1 <+: outer.1 :=
    List.prefix_of_prefix_length_le (hinner.2.1.trans (List.prefix_append _ _)) houter.2.1
      (Nat.le_of_lt hlt)
  exact labels_differ outer houter.1 inner hinner.1 hkeys hlt
    (List.prefix_or_prefix_of_prefix (hinner.label_prefix.trans hp) houter.label_prefix)

/-- When a sequence is cut, what is written for the first text is not even the beginning of what
is written for both: up to the sequence the two agree, and there the labels differ. -/
theorem Straddles.not_prefix (h : Straddles front back) :
    ¬ escapeFrom 0 front <+: escapeFrom 0 (front ++ back) := by
  obtain ⟨entry, he, start, rest, hs, hr, heq, ⟨before, rfl⟩, hback⟩ := h
  -- the sequence begins with a raw control character, so no other one reaches into it
  have hapart (more : List Char) : ¬ Straddles before (start ++ more) := by
    obtain ⟨c, start, rfl⟩ := List.exists_cons_of_ne_nil hs
    have hi := introduced_of_mem entry he
    rw [heq] at hi
    exact not_straddles_of_isRaw hi.1
  have hstart : ¬ Straddles before start := by simpa using hapart []
  rw [List.append_assoc, escapeFrom_append hstart, escapeFrom_append (hapart back),
    List.prefix_append_right_inj]
  exact escapeFrom_cut he hs hr heq hback

theorem escape_append_iff (front back : String) :
    escape (front ++ back) = escape front ++ escape back ↔
      ¬ Straddles front.toList back.toList := by
  simp only [← String.toList_inj, String.toList_append, toList_escape]
  refine ⟨fun h hs => hs.not_prefix ?_, escapeFrom_append⟩
  rw [h]
  exact List.prefix_append _ _

/-- No sequence begins in one of the texts and ends in a later one. -/
def Unsplit : List String → Prop
  | [] => True
  | text :: rest => ¬ Straddles text.toList (String.join rest).toList ∧ Unsplit rest

theorem join_escape_iff (texts : List String) :
    String.join (texts.map escape) = escape (String.join texts) ↔ Unsplit texts := by
  induction texts with
  | nil => exact iff_of_true rfl trivial
  | cons text rest ih =>
    rw [List.map_cons, String.join_cons, String.join_cons, Unsplit, ← ih]
    by_cases hs : Straddles text.toList (String.join rest).toList
    · refine iff_of_false (fun h => hs.not_prefix ?_) fun h => h.1 hs
      rw [← toList_escape, ← String.toList_append, ← toList_escape, ← h, String.toList_append]
      exact List.prefix_append _ _
    · rw [(escape_append_iff _ _).mpr hs, String.append_right_inj]
      exact ⟨fun h => ⟨hs, h⟩, fun h => h.2⟩

/-- Texts can be written out one after the other unless a known sequence is cut between them. The
loop takes the longest sequence that begins the rest of its input at every place, and so the log
that grows event by event is the one of all keystrokes in a row exactly if no sequence is split
across events. -/
theorem escape_splits_iff :
    (∀ front back : String, escape (front ++ back) = escape front ++ escape back ↔
      ¬ Straddles front.toList back.toList) ∧
    (∀ (rest : List Char) (entry : List Char × List Char),
      match? rest = some entry ↔ Longest entry rest) ∧
    (∀ text : String, Written text.toList (escape text).toList) ∧
    ∀ events : List Event,
      String.join (events.map Event.keystrokeOutput) =
          escape (String.join (events.map Event.typed)) ↔
        Unsplit (events.map Event.typed) := by
  refine ⟨escape_append_iff, fun _ _ => match?_eq_some_iff, fun text => ?_, fun events => ?_⟩
  · rw [toList_escape]
    exact written_escapeFrom 0 text.toList
  · have hout : events.map Event.keystrokeOutput = (events.map Event.typed).map escape := by
      simp [Event.keystrokeOutput_eq, Event.inLog]
    rw [hout]
    exact join_escape_iff _

example : escape "\x1b" ++ escape "[A" = "[ESC][A" ∧ escape ("\x1b" ++ "[A") = "[UP]" := by
  decide +kernel

end Keystrokes

end SessionPlayback
