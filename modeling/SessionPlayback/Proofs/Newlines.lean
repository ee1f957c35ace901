import SessionPlayback.Playback.Basic
import Mathlib.Data.List.Basic

/-!
Line ends of terminal output in one form. The loop over the bytes looks back at one byte. It comes
to writing every line end in full, and that form is the only one that stands for the same lines.
Output that arrives in parts can be treated part by part, unless a line end is cut in two.
-/

namespace SessionPlayback

namespace Newlines

/-- The bytes with each carriage return and line feed in a row as one line feed. -/
def collapse : List UInt8 → List UInt8
  | [] => []
  | [byte] => [byte]
  | first :: second :: rest =>
    if first = carriageReturn ∧ second = lineFeed then lineFeed :: collapse rest
    else first :: collapse (second :: rest)

/-- The bytes with a carriage return before each line feed, whatever stands there already. -/
def expand (bytes : List UInt8) : List UInt8 :=
  bytes.flatMap fun byte => if byte = lineFeed then [carriageReturn, byte] else [byte]

def Paired (bytes : List UInt8) : Prop :=
  ∀ front back, bytes = front ++ lineFeed :: back → front.getLast? = some carriageReturn

def CutBetween (front back : List UInt8) : Prop :=
  front.getLast? = some carriageReturn ∧ back.head? = some lineFeed

instance (front back : List UInt8) : Decidable (CutBetween front back) :=
  inferInstanceAs (Decidable (_ ∧ _))

theorem lineFeed_ne_carriageReturn : lineFeed ≠ carriageReturn := by decide

@[simp] theorem expand_nil : expand [] = [] := rfl

@[simp] theorem expand_lineFeed (rest : List UInt8) :
    expand (lineFeed :: rest) = carriageReturn :: lineFeed :: expand rest := rfl

theorem expand_cons_of_ne {byte : UInt8} (h : byte ≠ lineFeed) (rest : List UInt8) :
    expand (byte :: rest) = byte :: expand rest := by
  simp [expand, h]

theorem head?_expand_ne (bytes : List UInt8) : (expand bytes).head? ≠ some lineFeed := by
  cases bytes with
  | nil => simp
  | cons byte rest =>
    by_cases h : byte = lineFeed
    · simp [h, lineFeed_ne_carriageReturn.symm]
    · simp [expand_cons_of_ne h, h]

@[simp] theorem collapse_lineEnd (rest : List UInt8) :
    collapse (carriageReturn :: lineFeed :: rest) = lineFeed :: collapse rest := by
  simp [collapse]

theorem collapse_cons {first : UInt8} {rest : List UInt8}
    (h : ¬ (first = carriageReturn ∧ rest.head? = some lineFeed)) :
    collapse (first :: rest) = first :: collapse rest := by
  cases rest with
  | nil => rfl
  | cons second rest => rw [collapse, if_neg (by simpa using h)]

@[simp] theorem collapse_expand (bytes : List UInt8) : collapse (expand bytes) = bytes := by
  induction bytes with
  | nil => rfl
  | cons byte rest ih =>
    by_cases h : byte = lineFeed
    · rw [h, expand_lineFeed, collapse_lineEnd, ih]
    · rw [expand_cons_of_ne h, collapse_cons fun hc => head?_expand_ne rest hc.2, ih]

theorem Paired.append {front back : List UInt8} (hf : Paired front) (hb : Paired back) :
    Paired (front ++ back) := by
  intro before behind h
  rcases List.append_eq_append_iff.mp h with ⟨middle, rfl, hback⟩ | ⟨middle, rfl, hfront⟩
  · have hlast := hb middle behind hback
    simp [List.getLast?_append, hlast]
  · cases middle with
    | nil => simpa using hb [] behind (by simpa using hfront.symm)
    | cons byte middle =>
      obtain ⟨rfl, -⟩ := List.cons_eq_cons.mp hfront
      exact hf before middle rfl

/-- The bytes behind a border are paired, unless it is there that the first of them has its
carriage return. -/
theorem Paired.of_append {front back : List UInt8} (h : Paired (front ++ back))
    (hc : ¬ CutBetween front back) : Paired back := by
  rintro before behind rfl
  have hlast := h (front ++ before) behind (by simp)
  cases hb : before.getLast? with
  | some byte => simpa [List.getLast?_append, hb] using hlast
  | none =>
    obtain rfl := List.getLast?_eq_none_iff.mp hb
    exact absurd ⟨by simpa using hlast, rfl⟩ hc

theorem paired_expand (bytes : List UInt8) : Paired (expand bytes) := by
  induction bytes with
  | nil => intro front back h; simp at h
  | cons byte rest ih =>
    by_cases h : byte = lineFeed
    · have hend : Paired [carriageReturn, lineFeed] := by
        intro front back heq
        rcases front with _ | ⟨first, _ | ⟨second, front⟩⟩
        · simp [lineFeed_ne_carriageReturn.symm] at heq
        · simpa using (List.cons_eq_cons.mp heq).1.symm
        · simp at heq
      exact h ▸ hend.append ih
    · have hone : Paired [byte] := by
        intro front back heq
        cases front <;> simp_all
      rw [expand_cons_of_ne h]
      exact hone.append ih

/-- Bytes in which every line end is written in full are fixed by what they collapse to. -/
theorem expand_collapse {bytes : List UInt8} (h : Paired bytes) :
    expand (collapse bytes) = bytes := by
  -- a border behind a line end, or behind a byte that is no part of one, cuts nothing
  fun_induction collapse bytes with
  | case1 => rfl
  | case2 byte =>
    have hne : byte ≠ lineFeed := by
      rintro rfl
      simpa using h [] [] rfl
    exact expand_cons_of_ne hne []
  | case3 first second rest hpair ih =>
    obtain ⟨rfl, rfl⟩ := hpair
    have hrest : Paired rest :=
      (show Paired ([carriageReturn, lineFeed] ++ rest) from h).of_append
        fun hc => lineFeed_ne_carriageReturn (by simpa using hc.1)
    rw [expand_lineFeed, ih hrest]
  | case4 first second rest hpair ih =>
    have hne : first ≠ lineFeed := by
      rintro rfl
      simpa using h [] (second :: rest) rfl
    have hrest : Paired (second :: rest) :=
      (show Paired ([first] ++ second :: rest) from h).of_append
        fun hc => hpair (by simpa [CutBetween] using hc)
    rw [expand_cons_of_ne hne, ih hrest]

theorem normalizeFrom_lineFeed (afterReturn : Bool) (rest : List UInt8) :
    normalizeFrom afterReturn (lineFeed :: rest) =
      (if afterReturn then [] else [carriageReturn]) ++ lineFeed :: normalizeFrom false rest := by
  cases afterReturn <;> rfl

theorem normalizeFrom_of_ne {byte : UInt8} (h : byte ≠ lineFeed) (afterReturn : Bool)
    (rest : List UInt8) : normalizeFrom afterReturn (byte :: rest) =
      byte :: normalizeFrom (byte == carriageReturn) rest := by
  simp [normalizeFrom, h]

/-- The byte before the data counts only if the data begin with a line feed. -/
theorem normalizeFrom_eq_iff (afterReturn : Bool) (data : List UInt8) :
    normalizeFrom afterReturn data = normalize data ↔
      ¬ (afterReturn = true ∧ data.head? = some lineFeed) := by
  cases data with
  | nil => simp [normalize, normalizeFrom]
  | cons byte rest =>
    by_cases h : byte = lineFeed
    · cases afterReturn <;> simp [h, normalize, normalizeFrom_lineFeed]
    · simp [normalize, normalizeFrom_of_ne h, h]

/-- To put in the missing carriage returns is to leave out those that are there and write all of
them again. -/
theorem normalize_eq (data : List UInt8) : normalize data = expand (collapse data) := by
  fun_induction collapse data with
  | case1 => rfl
  | case2 byte =>
    by_cases h : byte = lineFeed
    · rw [h]
      rfl
    · rw [normalize, normalizeFrom_of_ne h, expand_cons_of_ne h]
      rfl
  | case3 first second rest hpair ih =>
    obtain ⟨rfl, rfl⟩ := hpair
    rw [expand_lineFeed, ← ih, normalize, normalizeFrom_of_ne lineFeed_ne_carriageReturn.symm]
    exact congrArg _ (normalizeFrom_lineFeed true rest)
  | case4 first second rest hpair ih =>
    by_cases h : first = lineFeed
    · rw [h, expand_lineFeed, ← ih]
      rfl
    · rw [expand_cons_of_ne h, ← ih, normalize, normalizeFrom_of_ne h,
        (normalizeFrom_eq_iff _ _).mpr (by simpa using hpair)]

theorem eq_normalize_iff {data written : List UInt8} :
    written = normalize data ↔ Paired written ∧ collapse written = collapse data := by
  constructor
  · rintro rfl
    rw [normalize_eq]
    exact ⟨paired_expand _, collapse_expand _⟩
  · rintro ⟨hp, hc⟩
    rw [normalize_eq, ← hc, expand_collapse hp]

/-- After a first part the loop remembers the last byte of it. -/
theorem normalizeFrom_append (afterReturn : Bool) (front back : List UInt8) :
    normalizeFrom afterReturn (front ++ back) = normalizeFrom afterReturn front ++
      normalizeFrom (front.getLast?.elim afterReturn (· == carriageReturn)) back := by
  induction front generalizing afterReturn with
  | nil => rfl
  | cons byte rest ih =>
    have hlast : (byte :: rest).getLast?.elim afterReturn (· == carriageReturn) =
        rest.getLast?.elim (byte == carriageReturn) (· == carriageReturn) := by
      rw [List.getLast?_cons]
      cases rest.getLast? <;> rfl
    rw [List.cons_append, normalizeFrom, normalizeFrom, ih, hlast, List.append_assoc]

theorem normalize_append_iff (front back : List UInt8) :
    normalize front ++ normalize back = normalize (front ++ back) ↔ ¬ CutBetween front back := by
  have hafter : front.getLast?.elim false (· == carriageReturn) = true ↔
      front.getLast? = some carriageReturn := by
    cases front.getLast? <;> simp
  have hwhole : normalize (front ++ back) = normalize front ++
      normalizeFrom (front.getLast?.elim false (· == carriageReturn)) back :=
    normalizeFrom_append false front back
  rw [hwhole, List.append_cancel_left_eq, eq_comm, normalizeFrom_eq_iff, hafter, CutBetween]

end Newlines

theorem Held.push_terminal {e : Event} {payload : String} {data : List UInt8}
    (he : e.kind = .message ⟨.incoming, payload⟩) (hd : decodePayload payload = .ok data)
    (h : Held) (cell : CellMetrics) :
    (h.push cell e).terminal = h.terminal ++ Newlines.normalize data := by
  simp [push, Event.terminalOutput, he, hd]

namespace Newlines

/-- Server output is put behind what is held in the one form that has every line end in full and
stands for the same lines. Output in that form stays as it is, and two parts of output come out as
the whole does, exactly if they do not cut a line end in two. -/
theorem normalize_canonical :
    (∀ (h : Held) (cell : CellMetrics) (e : Event) (payload : String) (data : List UInt8),
      e.kind = .message ⟨.incoming, payload⟩ → decodePayload payload = .ok data →
        (h.push cell e).terminal = h.terminal ++ normalize data) ∧
    (∀ data written : List UInt8,
      written = normalize data ↔ Paired written ∧ collapse written = collapse data) ∧
    (∀ data : List UInt8, normalize (normalize data) = normalize data) ∧
    ∀ front back : List UInt8,
      normalize front ++ normalize back = normalize (front ++ back) ↔ ¬ CutBetween front back := by
  refine ⟨fun h cell e payload data he hd => h.push_terminal he hd cell,
    fun data written => eq_normalize_iff, fun data => ?_, normalize_append_iff⟩
  -- what comes out has the form already, so it is the form of itself
  have hp : Paired (normalize data) := (eq_normalize_iff.mp rfl).1
  exact (eq_normalize_iff.mpr ⟨hp, rfl⟩).symm

def mixedLines : List UInt8 := [10, 13, 10, 13, 13, 10, 97, 10]

theorem normalize_canonical_mixedLines :
    decodePayload (encodePayload mixedLines) = .ok mixedLines ∧
      (({ terminal := [104, 13] } : Held).push ⟨8, 16⟩ (.incoming 0 mixedLines)).terminal =
        [104, 13] ++ [13, 10, 13, 10, 13, 13, 10, 97, 13, 10] := by
  have hd : decodePayload (encodePayload mixedLines) = .ok mixedLines := by decide +kernel
  have hn : normalize mixedLines = [13, 10, 13, 10, 13, 13, 10, 97, 13, 10] := by decide
  refine ⟨hd, ?_⟩
  rw [← hn]
  exact normalize_canonical.1 _ _ _ _ _ rfl hd

example : CutBetween [97, 13] [10, 98] ∧
    normalize [97, 13] ++ normalize [10, 98] = [97, 13, 13, 10, 98] ∧
    normalize ([97, 13] ++ [10, 98]) = [97, 13, 10, 98] := by
  decide

end Newlines

end SessionPlayback
