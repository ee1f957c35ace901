import SessionPlayback.Json.Printer
import SessionPlayback.Proofs.Json.Token
import Mathlib.Tactic.IntervalCases

/-!
Tokens of text that was printed. A string gives its token with its last character; a whole number
gives its token together with that of the character behind it, and an object brings the scan back to
where it was before. An object that is cut off is not closed.
-/

namespace SessionPlayback.Json

namespace Literal

theorem hexDigit?_digitChar : ∀ d < 16, hexDigit? (Nat.digitChar d) = some d := by
  decide

theorem utf8Size_digitChar : ∀ d < 16, (Nat.digitChar d).utf8Size = 1 := by
  decide

def plain (reversed : List Char) : Lexer := .string { reversed := reversed }

/-- A control character that is written by its code. -/
theorem feed_code {n : Nat} (h : n < 0x20) (reversed : List Char) :
    Lexer.feed (plain reversed)
        ['\\', 'u', '0', '0', Nat.digitChar (n / 16), Nat.digitChar (n % 16)] =
      ([], plain (Char.ofNat n :: reversed)) := by
  have hhigh := hexDigit?_digitChar (n / 16) (by omega)
  have hlow := hexDigit?_digitChar (n % 16) (by omega)
  have hhigh' := utf8Size_digitChar (n / 16) (by omega)
  have hlow' := utf8Size_digitChar (n % 16) (by omega)
  have hzero : hexDigit? '0' = some 0 := rfl
  have hzero' : '0'.utf8Size = 1 := rfl
  have hn : n / 16 * 16 + n % 16 = n := by omega
  have hsurrogate : ¬(0xDC00 ≤ n ∧ n ≤ 0xDFFF) ∧ ¬(0xD800 ≤ n ∧ n ≤ 0xDBFF) := by omega
  have hu : pushEscape { reversed := reversed, escape := .backslash } 'u' =
      some { reversed := reversed, escape := .code none 0 (some 0) } := rfl
  have hb : stepPlain { reversed := reversed } '\\' =
      ([], .string { reversed := reversed, escape := .backslash }) := rfl
  simp only [Lexer.feed_cons, Lexer.feed_nil, plain, Lexer.step, step, hb, hu, continueWith,
    pushHex, hzero, hzero', hhigh, hlow, hhigh', hlow', Option.bind_some, Option.map_some]
  simp [hn, pushCode, hsurrogate, push]

theorem feed_escapedChar (c : Char) (reversed : List Char) :
    Lexer.feed (plain reversed) (escapedChar c) = ([], plain (c :: reversed)) := by
  unfold escapedChar
  split
  · rfl
  · rfl
  · rfl
  · rfl
  · rfl
  · rfl
  · rfl
  · rename_i hquote hbackslash _ _ _ _ _
    split
    · rename_i hc
      rw [feed_code hc, Char.ofNat_toNat]
    · rename_i hc
      have hstep : stepPlain { reversed := reversed } c = ([], plain (c :: reversed)) := by
        unfold stepPlain
        rw [if_neg hquote, if_neg hbackslash, if_neg hc]
        rfl
      simp only [Lexer.feed_cons, Lexer.feed_nil, plain, Lexer.step, step, hstep]
      rfl

theorem feed_escapedChars (chars reversed : List Char) :
    Lexer.feed (plain reversed) (chars.flatMap escapedChar) =
      ([], plain (chars.reverse ++ reversed)) := by
  induction chars generalizing reversed with
  | nil => rfl
  | cons c chars ih =>
    rw [List.flatMap_cons, Lexer.feed_append_of (feed_escapedChar c reversed), ih]
    simp

end Literal

/-- A printed string is one token. -/
theorem feed_renderString (s : String) :
    Lexer.feed .ready (renderString s) = ([.string s], .ready) := by
  have hopen : Lexer.feed .ready ['"'] = ([], Literal.plain []) := rfl
  have hbody := Literal.feed_escapedChars s.toList []
  have hclose (reversed : List Char) : Lexer.feed (Literal.plain reversed) ['"'] =
      ([.string (String.ofList reversed.reverse)], .ready) := rfl
  have hs : renderString s = ['"'] ++ (s.toList.flatMap escapedChar ++ ['"']) := rfl
  rw [hs, Lexer.feed_append_of hopen, Lexer.feed_append_of hbody, hclose]
  simp

namespace Numeral

def reading (negative : Bool) (n : Nat) : Numeral :=
  { negative, place := if n = 0 then .zero else .whole, significand := n }

theorem push?_sign (negative : Bool) : ∀ d < 10,
    push? { negative, place := .sign } (Nat.digitChar d) = some (reading negative d) := by
  cases negative <;> decide

theorem digit?_digitChar : ∀ d < 10, digit? (Nat.digitChar d) = some d := by
  decide

theorem push?_whole (negative : Bool) {n d : Nat} (hn : 0 < n) (hd : d < 10)
    (hmax : n * 10 + d ≤ uint64Max) :
    push? (reading negative n) (Nat.digitChar d) = some (reading negative (n * 10 + d)) := by
  have hpoint : ∀ d < 10, Nat.digitChar d ≠ '.' := by decide
  have hn' : n ≠ 0 := by omega
  have hmark : d ≠ 14 := by omega
  simp [push?, reading, hn', hmark, hpoint d hd, digit?_digitChar d hd, pushWhole, hmax]

/-- The digits of a number that fits 64 bits. -/
theorem feed_toDigits (negative : Bool) {n : Nat} (h : n ≤ uint64Max) :
    Lexer.feed (.number { negative, place := .sign }) (Nat.toDigits 10 n) =
      ([], .number (reading negative n)) := by
  induction n using Nat.strongRecOn with
  | ind n ih =>
    by_cases hn : n < 10
    · rw [Nat.toDigits_of_lt_base hn]
      simp only [Lexer.feed_cons, Lexer.feed_nil, Lexer.step, Lexer.stepNumber,
        push?_sign negative n hn]
      rfl
    · rw [Nat.toDigits_of_base_le (by decide) (by omega),
        Lexer.feed_append_of (ih (n / 10) (by omega) (by omega))]
      have hp := push?_whole negative (n := n / 10) (d := n % 10) (by omega) (by omega)
        (by omega)
      have hdiv : n / 10 * 10 + n % 10 = n := by omega
      rw [hdiv] at hp
      simp only [Lexer.feed_cons, Lexer.feed_nil, Lexer.step, Lexer.stepNumber, hp]
      rfl

theorem toDigits_eq_cons (n : Nat) : ∃ d < 10, ∃ rest,
    Nat.toDigits 10 n = Nat.digitChar d :: rest := by
  induction n using Nat.strongRecOn with
  | ind n ih =>
    by_cases hn : n < 10
    · exact ⟨n, hn, [], Nat.toDigits_of_lt_base hn⟩
    · obtain ⟨d, hd, rest, hr⟩ := ih (n / 10) (by omega)
      refine ⟨d, hd, rest ++ [Nat.digitChar (n % 10)], ?_⟩
      rw [Nat.toDigits_of_base_le (by decide) (by omega), hr]
      rfl

/-- The first digit of a number without sign begins a numeral. -/
theorem start_digitChar {d : Nat} (hd : d < 10) : Lexer.start (Nat.digitChar d) =
    Lexer.stepNumber { negative := false, place := .sign } (Nat.digitChar d) := by
  interval_cases d <;> rfl

theorem feed_ready_toDigits {n : Nat} (h : n ≤ uint64Max) :
    Lexer.feed .ready (Nat.toDigits 10 n) = ([], .number (reading false n)) := by
  have hf := feed_toDigits false h
  obtain ⟨d, hd, rest, hr⟩ := toDigits_eq_cons n
  rw [hr, Lexer.feed_cons] at hf ⊢
  rw [Lexer.step, start_digitChar hd]
  exact hf

/-- A character that may stand behind a number and is a token by itself. -/
structure Ends (c : Char) (token : Token) : Prop extends Lexer.Delimits c where
  start_eq : Lexer.start c = ([token], .ready)

theorem ends_comma : Ends ',' .comma := ⟨⟨by decide, by decide, by decide⟩, rfl⟩

theorem ends_closeObject : Ends '\x7d' .closeObject := ⟨⟨by decide, by decide, by decide⟩, rfl⟩

theorem feed_reading {negative : Bool} {n : Nat} {c : Char} {token : Token}
    (hc : Ends c token) : Lexer.feed (.number (reading negative n)) [c] =
      ([(reading negative n).token, token], .ready) := by
  have hn : (reading negative n).isComplete none = true := by
    by_cases hn : n = 0 <;> simp [isComplete, reading, hn]
  simp only [Lexer.feed_cons, Lexer.feed_nil, Lexer.step,
    Lexer.stepNumber_of_delimits hn hc.toDelimits, hc.start_eq]
  rfl

theorem token_reading_false (n : Nat) :
    (reading false n).token = .number (.whole n) := by
  by_cases hn : n = 0 <;> simp [token, value?, reading, hn]

theorem token_reading_true {n : Nat} (hn : 0 < n) (h : int64Min ≤ -(n : Int)) :
    (reading true n).token = .number (.whole (-(n : Int))) := by
  have hn' : n ≠ 0 := by omega
  simp [token, value?, reading, hn', h, hn]

end Numeral

/-- A printed whole number is one token once the character behind it is known. -/
theorem feed_renderNumber {n : Int} (hl : int64Min ≤ n) (hu : n ≤ uint64Max) {c : Char}
    {token : Token} (hc : Numeral.Ends c token) :
    Lexer.feed .ready (renderNumber (.whole n) ++ [c]) =
      ([.number (.whole n), token], .ready) := by
  cases n with
  | ofNat m =>
    have hm : m ≤ uint64Max := by
      have : (m : Int) ≤ uint64Max := hu
      omega
    have hs : renderNumber (.whole (Int.ofNat m)) = Nat.toDigits 10 m := Nat.toList_repr
    rw [hs, Lexer.feed_append_of (Numeral.feed_ready_toDigits hm), Numeral.feed_reading hc,
      Numeral.token_reading_false]
    rfl
  | negSucc m =>
    have hneg : Int.negSucc m = -((m + 1 : Nat) : Int) := rfl
    have hm : m + 1 ≤ uint64Max := by
      rw [hneg] at hl
      simp only [int64Min, uint64Max] at hl ⊢
      omega
    have hs : renderNumber (.whole (Int.negSucc m)) = ['-'] ++ Nat.toDigits 10 (m + 1) := by
      simp [renderNumber, toString, Int.repr, Nat.toList_repr]
    have hsign : Lexer.feed .ready ['-'] = ([], .number { negative := true, place := .sign }) :=
      rfl
    rw [hs, List.append_assoc, Lexer.feed_append_of hsign,
      Lexer.feed_append_of (Numeral.feed_toDigits true hm), Numeral.feed_reading hc,
      Numeral.token_reading_true (by omega) (hneg ▸ hl)]
    rfl

/-- A value that is one token: a string, or a whole number that fits 64 bits. -/
inductive Scalar : Json → Prop where
  | string (s : String) : Scalar (.string s)
  | whole (n : Int) (hl : int64Min ≤ n) (hu : n ≤ uint64Max) : Scalar (ofInt n)

def scalarToken : Json → Token
  | .string s => .string s
  | .number n => .number n
  | _ => .null

theorem feed_scalar {v : Json} (hv : Scalar v) {c : Char} {token : Token}
    (hc : Numeral.Ends c token) :
    Lexer.feed .ready (renderChars v ++ [c]) = ([scalarToken v, token], .ready) := by
  cases hv with
  | string s =>
    have hend : Lexer.feed .ready [c] = ([token], .ready) := by
      simp [Lexer.feed_cons, Lexer.step, hc.start_eq]
    rw [renderChars, Lexer.feed_append_of (feed_renderString s), hend]
    rfl
  | whole n hl hu =>
    rw [ofInt, renderChars, feed_renderNumber hl hu hc]
    rfl

def memberTokens (m : String × Json) : List Token := [.string m.1, .colon, scalarToken m.2]

def separated {β : Type} (chunk : β → List Token) : List β → List Token
  | [] => []
  | b :: rest => chunk b ++ rest.flatMap fun b => .comma :: chunk b

/-- Some texts with a separator between them: the first, and each of the others behind one. -/
theorem intercalate_cons (separator text : List Char) (texts : List (List Char)) :
    separator.intercalate (text :: texts) =
      text ++ texts.flatMap fun text => separator ++ text := by
  induction texts generalizing text with
  | nil => simp
  | cons text' texts ih =>
    rw [List.intercalate_cons_cons, ih, List.flatMap_cons]
    simp

theorem feed_member {m : String × Json} (hm : Scalar m.2) {c : Char} {token : Token}
    (hc : Numeral.Ends c token) :
    Lexer.feed .ready (renderString m.1 ++ ':' :: renderChars m.2 ++ [c]) =
      (memberTokens m ++ [token], .ready) := by
  have hcolon : Lexer.feed .ready [':'] = ([.colon], .ready) := rfl
  have hs : renderString m.1 ++ ':' :: renderChars m.2 ++ [c] =
      renderString m.1 ++ ([':'] ++ (renderChars m.2 ++ [c])) := by simp
  rw [hs, Lexer.feed_append_of (feed_renderString m.1), Lexer.feed_append_of hcolon,
    feed_scalar hm hc]
  rfl

theorem feed_renderMembers {members : List (String × Json)}
    (h : ∀ m ∈ members, Scalar m.2) :
    Lexer.feed .ready (renderMembers members ++ ['\x7d']) =
      (separated memberTokens members ++ [.closeObject], .ready) := by
  induction members with
  | nil => rfl
  | cons m rest ih =>
    have hm : Scalar m.2 := h m (by simp)
    cases rest with
    | nil =>
      have hs : renderMembers [m] = renderString m.1 ++ ':' :: renderChars m.2 := rfl
      rw [hs, feed_member hm Numeral.ends_closeObject]
      simp [separated]
    | cons m' rest =>
      have hs : renderMembers (m :: m' :: rest) ++ ['\x7d'] =
          (renderString m.1 ++ ':' :: renderChars m.2 ++ [',']) ++
            (renderMembers (m' :: rest) ++ ['\x7d']) := by
        simp [renderMembers]
      rw [hs, Lexer.feed_append_of (feed_member hm Numeral.ends_comma),
        ih fun m hm => h m (by simp [hm])]
      simp [separated]

def objectTokens (members : List (String × Json)) : List Token :=
  .openObject :: separated memberTokens members ++ [.closeObject]

theorem feed_object {members : List (String × Json)} (h : ∀ m ∈ members, Scalar m.2) :
    Lexer.feed .ready (renderChars (.object members)) = (objectTokens members, .ready) := by
  have hopen : Lexer.feed .ready ['\x7b'] = ([.openObject], .ready) := rfl
  have hs : renderChars (.object members) = ['\x7b'] ++ (renderMembers members ++ ['\x7d']) := by
    simp [renderChars]
  rw [hs, Lexer.feed_append_of hopen, feed_renderMembers h]
  rfl

theorem closeObject_notMem_members (members : List (String × Json)) :
    .closeObject ∉ separated memberTokens members := by
  have htoken (v : Json) : scalarToken v ≠ .closeObject := by
    cases v <;> simp [scalarToken]
  have hmember (m : String × Json) : .closeObject ∉ memberTokens m := by
    simpa [memberTokens] using (htoken m.2).symm
  cases members with
  | nil => exact List.not_mem_nil
  | cons m rest => simp [separated, hmember]

/-- No object is closed by a text that stops within an object. -/
theorem closeObject_notMem_cut {members : List (String × Json)}
    (h : ∀ m ∈ members, Scalar m.2) {cut rest : List Char}
    (hcut : cut <+: renderChars (.object members)) (hne : cut ≠ renderChars (.object members))
    (hrest : '\x7d' ∉ rest) : .closeObject ∉ Lexer.run .ready (cut ++ rest) := by
  have hbody : renderChars (.object members) =
      '\x7b' :: renderMembers members ++ ['\x7d'] := by
    simp [renderChars]
  have hfeed := feed_object h
  rw [hbody] at hcut hne hfeed
  obtain ⟨more, hmore⟩ := (List.prefix_concat_iff.mp hcut).resolve_left hne
  rw [Lexer.feed_append, ← hmore, Lexer.feed_append, Prod.mk.injEq, objectTokens] at hfeed
  obtain ⟨htokens, hready⟩ := hfeed
  -- The brace at the end gives a token, so the others come before it.
  have hlast : (Lexer.feed (Lexer.feed (Lexer.feed .ready cut).2 more).2 ['\x7d']).1 ≠ [] := by
    rw [Lexer.feed_cons, Lexer.feed_nil] at hready ⊢
    simpa using Lexer.step_ne_nil hready (by decide)
  obtain ⟨front, last, hfront⟩ := (List.eq_nil_or_concat _).resolve_left hlast
  rw [hfront, List.concat_eq_append, ← List.append_assoc] at htokens
  have hbefore := (List.append_inj' htokens rfl).1
  rw [Lexer.run_append, List.mem_append, not_or]
  constructor
  · intro hmem
    have : .closeObject ∈ Token.openObject :: separated memberTokens members := by
      rw [← hbefore]
      simp [hmem]
    simp [closeObject_notMem_members] at this
  · exact fun hm => hrest (Lexer.mem_of_mem_run (Lexer.feed_sound Lexer.ready_sound cut) hm rfl)

end SessionPlayback.Json
