import SessionPlayback.Json.Token
import Mathlib.Data.List.Basic
import Mathlib.Data.List.Induction

/-!
The scan of JSON text piece by piece. What a piece yields depends on nothing but the state in front
of it. A bracket, a brace, a comma or a colon is a token only where the character stands outside of
strings, and nothing follows the fault at which a scan stops.
-/

namespace SessionPlayback.Json

def Token.char? : Token → Option Char
  | .openArray => some '['
  | .closeArray => some ']'
  | .openObject => some '\x7b'
  | .closeObject => some '\x7d'
  | .comma => some ','
  | .colon => some ':'
  | _ => none

def Token.isBroken : Token → Bool
  | .broken _ _ => true
  | _ => false

namespace Lexer

/-- The tokens of some characters, and the state behind them. -/
def feed (state : Lexer) : List Char → List Token × Lexer
  | [] => ([], state)
  | c :: rest =>
    let (tokens, next) := state.step c
    let (more, last) := feed next rest
    (tokens ++ more, last)

@[simp] theorem feed_nil (state : Lexer) : feed state [] = ([], state) := rfl

theorem feed_cons (state : Lexer) (c : Char) (rest : List Char) : feed state (c :: rest) =
    ((state.step c).1 ++ (feed (state.step c).2 rest).1, (feed (state.step c).2 rest).2) := rfl

theorem feed_append (state : Lexer) (front back : List Char) : feed state (front ++ back) =
    ((feed state front).1 ++ (feed (feed state front).2 back).1,
      (feed (feed state front).2 back).2) := by
  induction front generalizing state with
  | nil => rfl
  | cons c rest ih => simp only [List.cons_append, feed_cons, ih, List.append_assoc]

theorem run_append (state : Lexer) (front back : List Char) :
    run state (front ++ back) = (feed state front).1 ++ run (feed state front).2 back := by
  induction front generalizing state with
  | nil => rfl
  | cons c rest ih => simp only [List.cons_append, run, feed_cons, ih, List.append_assoc]

/-- The tokens of a text: those of its characters and those of its end. -/
theorem run_eq (state : Lexer) (chars : List Char) :
    run state chars = (feed state chars).1 ++ (feed state chars).2.finish := by
  have h := run_append state chars []
  rwa [List.append_nil] at h

/-- Characters that yield some tokens and lead to a state, followed by others. -/
theorem feed_append_of {state next : Lexer} {front : List Char} {tokens : List Token}
    (h : feed state front = (tokens, next)) (back : List Char) :
    feed state (front ++ back) = (tokens ++ (feed next back).1, (feed next back).2) := by
  rw [feed_append, h]

def Sound : Lexer → Prop
  | .word _ token => token.char? = none
  | _ => True

theorem ready_sound : Sound .ready := trivial

def inWord : Lexer → Bool
  | .word _ _ => true
  | .string _ => true
  | _ => false

/-- What has become of a character: a single-character token is that character outside of words and
strings, and a scan that stops ends with the fault. -/
structure Accounts (inside : Bool) (c : Char) (result : List Token × Lexer) : Prop where
  char : ∀ token ∈ result.1, ∀ d, token.char? = some d → d = c ∧ inside = false
  sound : result.2.Sound
  stopped : result.2 = .stopped →
    ∃ shape fault, result.1.getLast? = some (.broken shape fault)

namespace Accounts

variable {inside : Bool} {c : Char} {tokens : List Token} {state : Lexer}

/-- No token is a single character, and the scan goes on. -/
theorem of_words (htokens : ∀ token ∈ tokens, token.char? = none) (hsound : state.Sound)
    (hstate : state ≠ .stopped) : Accounts inside c (tokens, state) := by
  refine ⟨fun token hm d hd => ?_, hsound, fun h => absurd h hstate⟩
  rw [htokens token hm] at hd
  cases hd

theorem of_nil (hsound : state.Sound) (hstate : state ≠ .stopped) : Accounts inside c ([], state) :=
  of_words (fun _ h => absurd h List.not_mem_nil) hsound hstate

theorem of_word {token : Token} (h : token.char? = none) : Accounts inside c ([token], .ready) := by
  apply of_words
  · intro t ht
    rw [List.mem_singleton.mp ht, h]
  · trivial
  · nofun

/-- The scan stops at a fault. -/
theorem of_broken (htokens : ∀ token ∈ tokens, token.char? = none) (shape : Shape)
    (fault : Fault) : Accounts inside c (tokens ++ [.broken shape fault], .stopped) := by
  refine ⟨fun token hm d hd => ?_, trivial, fun _ => ⟨shape, fault, by simp⟩⟩
  rcases List.mem_append.mp hm with hm | hm
  · rw [htokens token hm] at hd
    cases hd
  · rw [List.mem_singleton.mp hm] at hd
    cases hd

theorem of_fault (shape : Shape) (fault : Fault) :
    Accounts inside c ([.broken shape fault], .stopped) :=
  of_broken (fun _ h => absurd h List.not_mem_nil) shape fault

/-- A single-character token. -/
theorem of_char {token : Token} (h : token.char? = some c) :
    Accounts false c ([token], .ready) := by
  refine ⟨fun t ht d hd => ?_, trivial, nofun⟩
  rw [List.mem_singleton.mp ht, h] at hd
  cases hd
  exact ⟨rfl, rfl⟩

end Accounts

theorem start_accounts (c : Char) : Accounts false c (start c) := by
  unfold start
  split
  · exact .of_nil trivial nofun
  · split
    · exact .of_char rfl
    · exact .of_char rfl
    · exact .of_char rfl
    · exact .of_char rfl
    · exact .of_char rfl
    · exact .of_char rfl
    · exact .of_nil trivial nofun
    · exact .of_nil rfl nofun
    · exact .of_nil rfl nofun
    · exact .of_nil rfl nofun
    · split
      · exact .of_nil trivial nofun
      · exact .of_fault _ _

theorem fail_accounts (c : Char) (s : Literal) (fault : Fault) :
    Accounts true c (s.fail fault, .stopped) := by
  unfold Literal.fail
  apply Accounts.of_broken
  intro token ht
  split at ht
  · cases ht
  · rw [List.mem_singleton.mp ht]
    rfl

theorem literal_accounts (s : Literal) (c : Char) : Accounts true c (s.step c) := by
  have hplain (s : Literal) : Accounts true c (s.stepPlain c) := by
    unfold Literal.stepPlain
    split
    · apply Accounts.of_word
      unfold Literal.token
      split <;> rfl
    · split
      · exact .of_nil trivial nofun
      · split
        · exact fail_accounts c s _
        · exact .of_nil trivial nofun
  have hcontinue (s : Literal) (next : Option Literal) : Accounts true c (s.continueWith next) := by
    cases next with
    | none => exact fail_accounts c s _
    | some next => exact .of_nil trivial nofun
  unfold Literal.step
  split
  · exact hplain s
  · exact hcontinue s _
  · exact hcontinue s _
  · split
    · exact .of_nil trivial nofun
    · exact hplain _
  · split
    · exact .of_nil trivial nofun
    · exact hcontinue _ _

theorem stepWord_accounts (rest : List Char) {token : Token} (h : token.char? = none) (c : Char) :
    Accounts true c (stepWord rest token c) := by
  unfold stepWord
  split
  · split
    · exact .of_word h
    · exact .of_fault _ _
  · split
    · exact .of_nil h nofun
    · exact .of_fault _ _
  · exact .of_fault _ _

theorem numeral_token_char? (n : Numeral) : n.token.char? = none := by
  unfold Numeral.token
  split <;> rfl

theorem stepNumber_accounts (n : Numeral) (c : Char) : Accounts false c (stepNumber n c) := by
  unfold stepNumber
  split
  · exact .of_nil trivial nofun
  · split
    · obtain ⟨hchar, hsound, hstopped⟩ := start_accounts c
      refine ⟨fun token hm d hd => ?_, hsound, fun h => ?_⟩
      · rcases List.mem_cons.mp hm with rfl | hm
        · rw [numeral_token_char? n] at hd
          cases hd
        · exact hchar token hm d hd
      · obtain ⟨shape, fault, hlast⟩ := hstopped h
        exact ⟨shape, fault, by rw [List.getLast?_cons, hlast]; rfl⟩
    · exact .of_fault _ _

theorem step_accounts {state : Lexer} (h : state.Sound) (hs : state ≠ .stopped) (c : Char) :
    Accounts state.inWord c (state.step c) := by
  cases state with
  | ready => exact start_accounts c
  | word rest token => exact stepWord_accounts rest h c
  | number n => exact stepNumber_accounts n c
  | string s => exact literal_accounts s c
  | stopped => exact absurd rfl hs

theorem feed_stopped (chars : List Char) : feed .stopped chars = ([], .stopped) := by
  induction chars with
  | nil => rfl
  | cons c rest ih => rw [feed_cons, step, ih]; rfl

/-- Nothing comes after the fault at which a scan stops. -/
theorem getLast?_of_stopped {state : Lexer} (h : state.Sound) (hs : state ≠ .stopped)
    {chars : List Char} (hstop : (feed state chars).2 = .stopped) :
    ∃ shape fault, (feed state chars).1.getLast? = some (.broken shape fault) := by
  induction chars generalizing state with
  | nil => exact absurd hstop hs
  | cons c rest ih =>
    obtain ⟨-, hsound, hstopped⟩ := step_accounts h hs c
    rw [feed_cons] at hstop ⊢
    by_cases hn : (state.step c).2 = .stopped
    · obtain ⟨shape, fault, hlast⟩ := hstopped hn
      exact ⟨shape, fault, by rw [hn, feed_stopped, List.append_nil, hlast]⟩
    · obtain ⟨shape, fault, hlast⟩ := ih hsound hn hstop
      exact ⟨shape, fault, by rw [List.getLast?_append, hlast]; rfl⟩

theorem feed_sound {state : Lexer} (h : state.Sound) (chars : List Char) :
    (feed state chars).2.Sound := by
  induction chars generalizing state with
  | nil => exact h
  | cons c rest ih =>
    by_cases hs : state = .stopped
    · rw [hs, feed_stopped]
      trivial
    · exact ih (step_accounts h hs c).sound

theorem finish_char? {state : Lexer} {token : Token} (h : token ∈ state.finish) :
    token.char? = none := by
  cases state with
  | ready => cases h
  | word rest word => cases word <;> simp_all [finish, cutWord, Token.char?]
  | number n =>
    have hn := numeral_token_char? n
    simp only [finish] at h
    split at h <;> simp_all [Token.char?]
  | string s =>
    simp only [finish, Literal.fail] at h
    split at h <;> simp_all [Token.char?]
    rcases h with rfl | rfl <;> rfl
  | stopped => cases h

/-- A single-character token is a character of the text. -/
theorem mem_of_mem_run {state : Lexer} (h : state.Sound) {chars : List Char} {token : Token}
    {d : Char} (hm : token ∈ run state chars) (hd : token.char? = some d) : d ∈ chars := by
  induction chars generalizing state with
  | nil =>
    rw [finish_char? hm] at hd
    cases hd
  | cons c rest ih =>
    by_cases hs : state = .stopped
    · rw [run_eq, hs, feed_stopped] at hm
      cases hm
    · obtain ⟨hchar, hsound, -⟩ := step_accounts h hs c
      rcases List.mem_append.mp hm with hm | hm
      · rw [(hchar token hm d hd).1]
        exact List.mem_cons_self
      · exact List.mem_cons_of_mem _ (ih hsound hm)

theorem start_silent {c : Char} (h : start c = ([], .ready)) : isBlank c = true := by
  by_contra hb
  unfold start at h
  rw [if_neg hb] at h
  split at h
  case h_11 => split at h <;> simp at h
  all_goals simp at h

/-- A character leaves no trace between two tokens only if it is a blank that stands there. -/
theorem step_silent {state : Lexer} {c : Char} (h : state.step c = ([], .ready)) :
    state = .ready ∧ isBlank c = true := by
  have hcontinue (s : Literal) (next : Option Literal) : s.continueWith next ≠ ([], .ready) := by
    cases next <;> simp [Literal.continueWith]
  have hplain (s : Literal) : s.stepPlain c ≠ ([], .ready) := by
    unfold Literal.stepPlain
    split_ifs <;> simp
  cases state with
  | ready =>
    exact ⟨rfl, start_silent h⟩
  | word rest token =>
    simp only [step, stepWord] at h
    split at h
    case h_3 => simp at h
    all_goals split_ifs at h <;> simp at h
  | number n =>
    simp only [step, stepNumber] at h
    split at h
    · simp at h
    · split_ifs at h <;> simp at h
  | string s =>
    simp only [step, Literal.step] at h
    split at h
    · exact absurd h (hplain s)
    · exact absurd h (hcontinue s _)
    · exact absurd h (hcontinue s _)
    · split_ifs at h
      · simp at h
      · exact absurd h (hplain _)
    · split_ifs at h
      · simp at h
      · exact absurd h (hcontinue _ _)
  | stopped => simp [step] at h

theorem step_ne_nil {state : Lexer} {c : Char} (h : (state.step c).2 = .ready)
    (hb : isBlank c = false) : (state.step c).1 ≠ [] := by
  intro hn
  have hblank := (step_silent (Prod.ext hn h)).2
  simp [hb] at hblank

/-- Blanks between two tokens leave no trace. -/
theorem feed_blanks {blanks : List Char} (h : ∀ c ∈ blanks, isBlank c = true) :
    feed .ready blanks = ([], .ready) := by
  induction blanks with
  | nil => rfl
  | cons c rest ih =>
    have hc : step .ready c = ([], .ready) := by simp [step, start, h c]
    rw [feed_cons, hc, ih fun d hd => h d (by simp [hd])]
    rfl

/-- Characters after which the scan is between two tokens end with the last character of a token,
and blanks behind it. -/
theorem feed_ready_cases {chars : List Char} (h : (feed .ready chars).2 = .ready) :
    (∀ c ∈ chars, isBlank c = true) ∨ ∃ core c blanks last,
      chars = core ++ c :: blanks ∧ (∀ b ∈ blanks, isBlank b = true) ∧
      (feed .ready (core ++ [c])).2 = .ready ∧
      (step (feed .ready core).2 c).1.getLast? = some last ∧
      (feed .ready chars).1.getLast? = some last := by
  induction chars using List.reverseRecOn with
  | nil => exact .inl fun _ hc => absurd hc List.not_mem_nil
  | append_singleton chars c ih =>
    have hfeed : feed .ready (chars ++ [c]) =
        ((feed .ready chars).1 ++ (step (feed .ready chars).2 c).1,
          (step (feed .ready chars).2 c).2) := by
      rw [feed_append, feed_cons, feed_nil, List.append_nil]
    cases ht : (step (feed .ready chars).2 c).1.getLast? with
    | some last =>
      refine .inr ⟨chars, c, [], last, rfl, nofun, h, ht, ?_⟩
      rw [hfeed, List.getLast?_append, ht]
      rfl
    | none =>
      have hsilent : step (feed .ready chars).2 c = ([], .ready) := by
        rw [hfeed] at h
        exact Prod.ext (List.getLast?_eq_none_iff.mp ht) h
      obtain ⟨hready, hblank⟩ := step_silent hsilent
      rw [hsilent, List.append_nil] at hfeed
      rcases ih hready with hall | ⟨core, d, blanks, last, rfl, hb, hcore, hstep, hlast⟩
      · refine .inl fun d hd => ?_
        rcases List.mem_append.mp hd with hd | hd
        · exact hall d hd
        · exact List.mem_singleton.mp hd ▸ hblank
      · refine .inr ⟨core, d, blanks ++ [c], last, by simp, fun b hm => ?_, hcore, hstep, ?_⟩
        · rcases List.mem_append.mp hm with hm | hm
          · exact hb b hm
          · exact List.mem_singleton.mp hm ▸ hblank
        · rw [hfeed]
          exact hlast

/-- No text ends unnoticed within a token. -/
theorem run_ne_nil {state : Lexer} (h : state.Sound) (hr : state ≠ .ready)
    (hs : state ≠ .stopped) (chars : List Char) : run state chars ≠ [] := by
  induction chars generalizing state with
  | nil =>
    cases state with
    | ready => exact absurd rfl hr
    | word letters token => exact List.cons_ne_nil _ _
    | number n =>
      simp only [run, finish]
      split <;> exact List.cons_ne_nil _ _
    | string s => simp [run, finish, Literal.fail]
    | stopped => exact absurd rfl hs
  | cons c rest ih =>
    obtain ⟨-, hsound, hstopped⟩ := step_accounts h hs c
    intro hn
    change (state.step c).1 ++ run (state.step c).2 rest = [] at hn
    obtain ⟨htokens, hrest⟩ := List.append_eq_nil_iff.mp hn
    refine ih hsound (fun hready => ?_) (fun hstop => ?_) hrest
    · exact hr (step_silent (Prod.ext htokens hready)).1
    · obtain ⟨shape, fault, hlast⟩ := hstopped hstop
      rw [htokens] at hlast
      cases hlast

/-- Where a text ends with a single-character token behind another one, the scan is between two
tokens in front of its last character. -/
theorem feed_of_run_concat {chars : List Char} {c : Char} {front : List Token}
    {last token : Token} (hc : start c = ([token], .ready)) (htoken : token.char? ≠ none)
    (hlast : last.char? ≠ none) (h : run .ready (chars ++ [c]) = front ++ [last, token]) :
    feed .ready chars = (front ++ [last], .ready) := by
  have hsound := feed_sound ready_sound chars
  rw [run_append] at h
  -- Within a token the scan cannot end without one more, so the last one comes from there.
  have hmem (hr : (feed .ready chars).2 ≠ .ready) (hstop : (feed .ready chars).2 ≠ .stopped) :
      token ∈ ((feed .ready chars).2.step c).1 := by
    have hend := congrArg List.getLast? h
    rw [List.getLast?_append_of_ne_nil _ (run_ne_nil hsound hr hstop [c])] at hend
    simp only [List.getLast?_append, List.getLast?_cons_cons, List.getLast?_singleton,
      Option.some_or] at hend
    rcases List.mem_append.mp (List.mem_of_getLast? hend) with hm | hm
    · exact hm
    · exact absurd (finish_char? hm) htoken
  obtain ⟨d, hd⟩ := Option.ne_none_iff_exists'.mp htoken
  have hchar (hr : (feed .ready chars).2 ≠ .ready) (hstop : (feed .ready chars).2 ≠ .stopped) :=
    ((step_accounts hsound hstop c).char token (hmem hr hstop) d hd).2
  cases hs : (feed .ready chars).2 with
  | ready =>
    have hrun : run .ready [c] = [token] := by simp [run, step, hc, finish]
    have hsplit : front ++ [last, token] = (front ++ [last]) ++ [token] := by simp
    rw [hs, hrun, hsplit] at h
    exact Prod.ext (List.append_inj' h rfl).1 hs
  | word letters word =>
    rw [hs] at hchar
    cases hchar nofun nofun
  | string s =>
    rw [hs] at hchar
    cases hchar nofun nofun
  | number n =>
    have hnumber : n.token ≠ last := fun he => hlast (he ▸ numeral_token_char? n)
    rw [hs] at h hmem
    have hm := hmem nofun nofun
    cases hp : n.push? c with
    | some next => simp [step, stepNumber, hp] at hm
    | none =>
      by_cases hn : n.isComplete (some c) = true
      · have hrun : run (.number n) [c] = [n.token, token] := by
          simp [run, step, stepNumber, hp, hn, hc, finish]
        rw [hrun] at h
        have hpair := (List.append_inj' h rfl).2
        simp only [List.cons.injEq, and_true] at hpair
        exact absurd hpair hnumber
      · simp only [step, stepNumber, hp, hn] at hm
        rw [List.mem_singleton.mp hm] at htoken
        exact absurd rfl htoken
  | stopped =>
    obtain ⟨shape, fault, hbroken⟩ := getLast?_of_stopped ready_sound nofun hs
    have hrun : run .stopped [c] = [] := rfl
    rw [hs, hrun, List.append_nil] at h
    rw [h, List.getLast?_append] at hbroken
    cases hbroken
    exact absurd rfl htoken

/-- A character that no complete numeral goes on with. -/
structure Delimits (c : Char) : Prop where
  notDigit : c.isDigit = false
  notPoint : c ≠ '.'
  notMark : ¬(c = 'e' ∨ c = 'E')

theorem stepNumber_of_delimits {n : Numeral} {c : Char} (hn : n.isComplete none = true)
    (hc : Delimits c) : stepNumber n c = (n.token :: (start c).1, (start c).2) := by
  have hpush : n.push? c = none := by
    unfold Numeral.isComplete at hn
    unfold Numeral.push? Numeral.digit?
    split at hn <;> simp_all [hc.notDigit, hc.notPoint, hc.notMark]
  have hcomplete : n.isComplete (some c) = true := by
    unfold Numeral.isComplete at hn ⊢
    split at hn <;> simp_all [hc.notDigit]
  simp only [stepNumber, hpush, hcomplete, ↓reduceIte]

/-- Where a text can be read to its end, a character that ends numerals begins something new. -/
theorem run_append_delimited {text : List Char}
    (h : ∀ token ∈ run .ready text, token.isBroken = false) {c : Char} (hc : Delimits c)
    (rest : List Char) :
    run .ready (text ++ c :: rest) = run .ready text ++ run .ready (c :: rest) := by
  rw [run_eq] at h
  rw [run_append, run_eq .ready text, List.append_assoc]
  congr 1
  cases hs : (feed .ready text).2 with
  | ready => rfl
  | word letters token =>
    have hbroken := h (cutWord token) (by simp [hs, finish])
    unfold cutWord at hbroken
    split at hbroken <;> cases hbroken
  | number n =>
    have hn : n.isComplete none = true := by
      by_contra hn
      have hbroken := h (.broken .number .endOfInput) (by simp [hs, finish, hn])
      cases hbroken
    simp only [run, step, finish, hn, ↓reduceIte, stepNumber_of_delimits hn hc]
    rfl
  | string s =>
    have hbroken := h (.broken .string .endOfInput) (by simp [hs, finish, Literal.fail])
    cases hbroken
  | stopped =>
    obtain ⟨shape, fault, hlast⟩ := getLast?_of_stopped ready_sound nofun hs
    have hbroken := h _ (List.mem_append_left _ (List.mem_of_getLast? hlast))
    cases hbroken

end Lexer
end SessionPlayback.Json
