import SessionPlayback.Text.Utf8
import Mathlib.Data.List.Basic

/-!
UTF-8 that was written by `utf8` and perhaps cut off. The scan yields every character once its last
octet has been read; after a cut within a character it has an open sequence, so that the octets are
not UTF-8.
-/

namespace SessionPlayback.Text

namespace Utf8

def feed (state : Option Partial) : List UInt8 → List (Option Char) × Option Partial
  | [] => ([], state)
  | octet :: rest =>
    let (emitted, next) := step state octet
    let (more, last) := feed next rest
    (emitted ++ more, last)

theorem scan_append (state : Option Partial) (front back : List UInt8) :
    scan state (front ++ back) =
      (feed state front).1 ++ scan (feed state front).2 back := by
  induction front generalizing state with
  | nil => rfl
  | cons octet rest ih => simp only [List.cons_append, scan, feed, ih, List.append_assoc]

theorem lead_one {n : Nat} (h : n < 0x80) : lead (UInt8.ofNat n) = .char (Char.ofNat n) := by
  have hn : (UInt8.ofNat n).toNat = n := by simp; omega
  simp only [lead, UInt8.lt_iff_toNat_lt, hn]
  rw [if_pos (by simpa using h)]

theorem lead_two {n : Nat} (hl : 0xC2 ≤ n) (hu : n < 0xE0) :
    lead (UInt8.ofNat n) = .opens ⟨0x80, 0xBF, 0, n - 0xC0⟩ := by
  have hn : (UInt8.ofNat n).toNat = n := by simp; omega
  simp only [lead, UInt8.lt_iff_toNat_lt, hn, UInt8.reduceToNat]
  rw [if_neg (by omega), if_neg (by omega), if_pos (by omega)]

theorem lead_three {n : Nat} (hl : 0xE0 ≤ n) (hu : n < 0xF0) : lead (UInt8.ofNat n) =
    .opens ⟨if n = 0xE0 then 0xA0 else 0x80, if n = 0xED then 0x9F else 0xBF, 1, n - 0xE0⟩ := by
  have hn : (UInt8.ofNat n).toNat = n := by simp; omega
  simp only [lead, UInt8.lt_iff_toNat_lt, ← UInt8.toNat_inj, hn, UInt8.reduceToNat]
  rw [if_neg (by omega), if_neg (by omega), if_neg (by omega), if_pos (by omega)]

theorem lead_four {n : Nat} (hl : 0xF0 ≤ n) (hu : n < 0xF5) : lead (UInt8.ofNat n) =
    .opens ⟨if n = 0xF0 then 0x90 else 0x80, if n = 0xF4 then 0x8F else 0xBF, 2, n - 0xF0⟩ := by
  have hn : (UInt8.ofNat n).toNat = n := by simp; omega
  simp only [lead, UInt8.lt_iff_toNat_lt, ← UInt8.toNat_inj, hn, UInt8.reduceToNat]
  rw [if_neg (by omega), if_neg (by omega), if_neg (by omega), if_neg (by omega),
    if_pos (by omega)]

/-- The last octet of a character. -/
theorem step_last (code : Nat) :
    step (some ⟨0x80, 0xBF, 0, code / 64⟩) (UInt8.ofNat (code % 64 + 0x80)) =
      ([some (Char.ofNat code)], none) := by
  have hn : (UInt8.ofNat (code % 64 + 0x80)).toNat = code % 64 + 0x80 := by simp; omega
  have hbits : code / 64 * 64 + (code % 64 + 0x80) % 64 = code := by omega
  simp only [step, UInt8.le_iff_toNat_le, hn, UInt8.reduceToNat, hbits]
  rw [if_pos (by omega)]

/-- An octet between the first and the last of a character. -/
theorem step_middle {code more : Nat} {low high : UInt8}
    (hl : low.toNat ≤ code % 64 + 0x80) (hh : code % 64 + 0x80 ≤ high.toNat) :
    step (some ⟨low, high, more + 1, code / 64⟩) (UInt8.ofNat (code % 64 + 0x80)) =
      ([], some ⟨0x80, 0xBF, more, code⟩) := by
  have hn : (UInt8.ofNat (code % 64 + 0x80)).toNat = code % 64 + 0x80 := by simp; omega
  have hbits : code / 64 * 64 + (code % 64 + 0x80) % 64 = code := by omega
  simp only [step, UInt8.le_iff_toNat_le, hn, hbits]
  rw [if_pos ⟨hl, hh⟩]

/-- The octets complete an open sequence: the last of them brings the character out. -/
def Completes (p : Partial) (octets : List UInt8) (c : Char) : Prop :=
  feed (some p) octets = ([some c], none) ∧
    ∀ front, front <+: octets → front ≠ octets → ∃ q, feed (some p) front = ([], some q)

theorem Completes.last {p : Partial} {octet : UInt8} {c : Char}
    (h : step (some p) octet = ([some c], none)) : Completes p [octet] c := by
  refine ⟨by simp [feed, h], fun front hf hn => ?_⟩
  rcases List.prefix_cons_iff.mp hf with rfl | ⟨t, rfl, ht⟩
  · exact ⟨p, rfl⟩
  · simp [List.prefix_nil.mp ht] at hn

theorem Completes.cons {p q : Partial} {octet : UInt8} {rest : List UInt8} {c : Char}
    (h : step (some p) octet = ([], some q)) (hr : Completes q rest c) :
    Completes p (octet :: rest) c := by
  refine ⟨by simp [feed, h, hr.1], fun front hf hn => ?_⟩
  rcases List.prefix_cons_iff.mp hf with rfl | ⟨t, rfl, ht⟩
  · exact ⟨p, rfl⟩
  · obtain ⟨r, hr⟩ := hr.2 t ht (by simpa using hn)
    exact ⟨r, by simp [feed, h, hr]⟩

/-- The octets of a character bring it out with the last of them, and begin a sequence. -/
def Encodes (octets : List UInt8) (c : Char) : Prop :=
  feed none octets = ([some c], none) ∧ ∀ front, front <+: octets → front ≠ [] →
    front ≠ octets → ∃ p, feed none front = ([], some p)

theorem Encodes.of_completes {p : Partial} {octet : UInt8} {rest : List UInt8} {c : Char}
    (h : lead octet = .opens p) (hr : Completes p rest c) : Encodes (octet :: rest) c := by
  have hs : step none octet = ([], some p) := by simp [step, start, h]
  refine ⟨by simp [feed, hs, hr.1], fun front hf hne hn => ?_⟩
  rcases List.prefix_cons_iff.mp hf with rfl | ⟨t, rfl, ht⟩
  · exact absurd rfl hne
  · obtain ⟨r, hr⟩ := hr.2 t ht (by simpa using hn)
    exact ⟨r, by simp [feed, hs, hr]⟩

theorem completes_last (code : Nat) :
    Completes ⟨0x80, 0xBF, 0, code / 64⟩ [UInt8.ofNat (code % 64 + 0x80)] (Char.ofNat code) :=
  .last (step_last code)

theorem encodes_one {code : Nat} (h : code < 0x80) :
    Encodes [UInt8.ofNat code] (Char.ofNat code) := by
  refine ⟨by simp [feed, step, start, lead_one h], fun front hf hne hn => ?_⟩
  rcases List.prefix_cons_iff.mp hf with rfl | ⟨t, rfl, ht⟩
  · exact absurd rfl hne
  · simp [List.prefix_nil.mp ht] at hn

theorem encodes_two {code : Nat} (hl : 0x80 ≤ code) (hu : code < 0x800) :
    Encodes [UInt8.ofNat (code / 64 % 32 + 0xC0), UInt8.ofNat (code % 64 + 0x80)]
      (Char.ofNat code) := by
  have hlead := lead_two (n := code / 64 % 32 + 0xC0) (by omega) (by omega)
  have hbits : code / 64 % 32 + 0xC0 - 0xC0 = code / 64 := by omega
  rw [hbits] at hlead
  exact .of_completes hlead (completes_last code)

/-- The narrowed range of the second octet leaves room for every character but the surrogates. -/
theorem encodes_three {code : Nat} (hl : 0x800 ≤ code) (hu : code < 0x10000)
    (hs : code < 0xD800 ∨ 0xDFFF < code) :
    Encodes [UInt8.ofNat (code / 4096 % 16 + 0xE0), UInt8.ofNat (code / 64 % 64 + 0x80),
      UInt8.ofNat (code % 64 + 0x80)] (Char.ofNat code) := by
  have hlead := lead_three (n := code / 4096 % 16 + 0xE0) (by omega) (by omega)
  have hbits : code / 4096 % 16 + 0xE0 - 0xE0 = code / 64 / 64 := by omega
  rw [hbits] at hlead
  refine .of_completes hlead (.cons (step_middle ?_ ?_) (completes_last code))
  · split
    · simp; omega
    · simp
  · split
    · simp; omega
    · simp; omega

theorem encodes_four {code : Nat} (hl : 0x10000 ≤ code) (hu : code ≤ 0x10FFFF) :
    Encodes [UInt8.ofNat (code / 262144 % 8 + 0xF0), UInt8.ofNat (code / 4096 % 64 + 0x80),
      UInt8.ofNat (code / 64 % 64 + 0x80), UInt8.ofNat (code % 64 + 0x80)]
      (Char.ofNat code) := by
  have hlead := lead_four (n := code / 262144 % 8 + 0xF0) (by omega) (by omega)
  have hbits : code / 262144 % 8 + 0xF0 - 0xF0 = code / 64 / 64 / 64 := by omega
  have hmiddle : code / 4096 = code / 64 / 64 := by omega
  rw [hbits] at hlead
  rw [hmiddle]
  refine .of_completes hlead (.cons (step_middle ?_ ?_)
    (.cons (step_middle (by simp) (by simp; omega)) (completes_last code)))
  · split
    · simp; omega
    · simp
  · split
    · simp; omega
    · simp; omega

theorem encodes (c : Char) : Encodes (String.utf8EncodeChar c) c := by
  have hc : Char.ofNat c.val.toNat = c := Char.ofNat_toNat c
  have hv : c.val.toNat < 0xD800 ∨ 0xDFFF < c.val.toNat ∧ c.val.toNat < 0x110000 := c.valid
  unfold String.utf8EncodeChar
  generalize c.val.toNat = code at hv hc
  subst hc
  dsimp only
  split
  · exact encodes_one (by omega)
  split
  · exact encodes_two (by omega) (by omega)
  split
  · exact encodes_three (by omega) (by omega) (by omega)
  · exact encodes_four (by omega) (by omega)

theorem scan_chars (chars : List Char) (rest : List UInt8) :
    scan none (chars.flatMap String.utf8EncodeChar ++ rest) =
      chars.map some ++ scan none rest := by
  induction chars with
  | nil => rfl
  | cons c chars ih =>
    rw [List.flatMap_cons, List.append_assoc, scan_append, (encodes c).1]
    simp [ih]

end Utf8

theorem utf8_append (front back : String) : utf8 (front ++ back) = utf8 front ++ utf8 back := by
  simp [utf8]

/-- Reading gives back what was written. -/
theorem ofUtf8?_chars (chars : List Char) :
    ofUtf8? (chars.flatMap String.utf8EncodeChar) = some (String.ofList chars) := by
  have h := Utf8.scan_chars chars []
  rw [List.append_nil] at h
  have hm : (chars.map some).mapM id = some chars := by
    rw [List.mapM_map]
    change (chars.mapM fun c => pure c) = some chars
    rw [List.mapM_pure, List.map_id']
    rfl
  rw [ofUtf8?, h]
  simp [Utf8.scan, hm]

theorem utf8_injective {front back : String} (h : utf8 front = utf8 back) :
    front = back := by
  have hf := ofUtf8?_chars front.toList
  have hb := ofUtf8?_chars back.toList
  rw [← utf8, h, utf8, hb] at hf
  have hsame : back = front := by simpa using hf
  exact hsame.symm

/-- Octets that stop within a character are not UTF-8. -/
theorem ofUtf8?_cut (chars : List Char) {c : Char} {front : List UInt8}
    (hf : front <+: String.utf8EncodeChar c) (hne : front ≠ [])
    (hn : front ≠ String.utf8EncodeChar c) :
    ofUtf8? (chars.flatMap String.utf8EncodeChar ++ front) = none := by
  obtain ⟨p, hp⟩ := (Utf8.encodes c).2 front hf hne hn
  have hs := Utf8.scan_append none front []
  rw [List.append_nil, hp] at hs
  rw [ofUtf8?, Utf8.scan_chars, hs, List.mapM_append]
  simp [Utf8.scan]

/-- A beginning of two lists in a row ends within the first or goes on into the second. -/
theorem prefix_append_cases {α : Type} {l front back : List α} (h : l <+: front ++ back) :
    l <+: front ∨ ∃ rest, l = front ++ rest ∧ rest <+: back := by
  rcases List.prefix_or_prefix_of_prefix h (List.prefix_append front back) with hf | ⟨rest, rfl⟩
  · exact .inl hf
  · exact .inr ⟨rest, rfl, by simpa using h⟩

/-- A beginning of the octets of a text ends between two characters or within one. -/
theorem prefix_flatMap_encode {chars : List Char} {front : List UInt8}
    (h : front <+: chars.flatMap String.utf8EncodeChar) :
    (∃ t, t <+: chars ∧ front = t.flatMap String.utf8EncodeChar) ∨
      ∃ t c cut, t ++ [c] <+: chars ∧ cut <+: String.utf8EncodeChar c ∧ cut ≠ [] ∧
        cut ≠ String.utf8EncodeChar c ∧ front = t.flatMap String.utf8EncodeChar ++ cut := by
  induction chars generalizing front with
  | nil => exact .inl ⟨[], List.prefix_refl _, List.prefix_nil.mp h⟩
  | cons c chars ih =>
    rw [List.flatMap_cons] at h
    rcases prefix_append_cases h with hc | ⟨rest, rfl, hr⟩
    · by_cases hne : front = []
      · exact .inl ⟨[], List.nil_prefix, hne⟩
      · by_cases hn : front = String.utf8EncodeChar c
        · exact .inl ⟨[c], by simp, by simp [hn]⟩
        · exact .inr ⟨[], c, front, by simp, hc, hne, hn, rfl⟩
    · rcases ih hr with ⟨t, ht, rfl⟩ | ⟨t, d, cut, ht, hcut, hne, hn, rfl⟩
      · exact .inl ⟨c :: t, by simpa using ht, by simp⟩
      · exact .inr ⟨c :: t, d, cut, by simpa using ht, hcut, hne, hn, by simp⟩

end SessionPlayback.Text
