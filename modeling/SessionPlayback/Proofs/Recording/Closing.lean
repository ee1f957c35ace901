import SessionPlayback.Proofs.Recording.Truncation

/-!
The closing bracket. A recording without it, whatever commas and blanks stand in its place, has the
same events, because what stands before the bracket of an array of records is a bracket or a brace;
and blanks around a recording make no difference.
-/

namespace SessionPlayback

namespace Text

theorem trim_append {lead trail : List Char} (hlead : ∀ c ∈ lead, isBlank c)
    (htrail : ∀ c ∈ trail, isBlank c) (text : List Char) :
    trim (lead ++ text ++ trail) = trim text := by
  have hnil : trail.dropWhile isBlank = [] := List.dropWhile_eq_nil_iff.mpr htrail
  have hend : dropEndWhile isBlank trail = [] := dropEndWhile_eq_nil.mpr htrail
  unfold trim
  rw [List.append_assoc, List.dropWhile_append_of_pos hlead, List.dropWhile_append, hnil]
  split
  · rename_i hempty
    rw [List.isEmpty_iff.mp hempty]
  · rw [dropEndWhile_append, if_pos hend]

/-- Trimming takes blanks away and nothing else. -/
theorem trim_eq (text : List Char) : ∃ lead trail, text = lead ++ trim text ++ trail ∧
    (∀ c ∈ lead, isBlank c) ∧ ∀ c ∈ trail, isBlank c := by
  refine ⟨text.takeWhile isBlank, (text.dropWhile isBlank).rtakeWhile isBlank, ?_, ?_, ?_⟩
  · have hsplit : trim text ++ (text.dropWhile isBlank).rtakeWhile isBlank =
        text.dropWhile isBlank := List.rdropWhile_append_rtakeWhile
    rw [List.append_assoc, hsplit, List.takeWhile_append_dropWhile]
  · exact fun c hc => List.mem_takeWhile_imp hc
  · exact fun c hc => List.mem_rtakeWhile_imp hc

end Text

namespace Json.Lexer

theorem blank_of_isBlank {c : Char} (h : isBlank c = true) : Text.isBlank c = true := by
  simp only [isBlank, Bool.or_eq_true, decide_eq_true_eq] at h
  rcases h with ((rfl | rfl) | rfl) | rfl <;> rfl

end Json.Lexer

namespace Recording

open Json (Lexer Token)

/-- What closes an array of records stands behind a record, unless there is none. -/
theorem arrayReader_last {tokens : List Token} {events : List Event}
    (h : arrayReader tokens = .ok (events, [])) : ∃ front last,
      tokens = front ++ [last, .closeArray] ∧ (last = .openArray ∨ last = .closeObject) := by
  unfold arrayReader at h
  split at h
  · rename_i rest
    cases hi : Json.items .closeArray readItem [] rest with
    | error fault =>
      change (Json.items .closeArray readItem [] rest).map _ = _ at h
      rw [hi] at h
      cases h
    | ok p =>
      change (Json.items .closeArray readItem [] rest).map _ = _ at h
      rw [hi] at h
      simp only [Except.map, Except.ok.injEq, Prod.mk.injEq] at h
      have hitem (reversed : List Event) : Json.EndsWith .closeObject (readItem reversed) :=
        (Event.reader_endsWith (Json.nestingLimit - 2)).map (· :: reversed)
      rcases Json.items_last hitem hi with hrest | hrest
      · exact ⟨[], .openArray, by rw [hrest, h.2]; rfl, .inl rfl⟩
      · rw [h.2] at hrest
        obtain ⟨front, hfront⟩ := hrest
        exact ⟨.openArray :: front, .closeObject, by rw [← hfront]; rfl, .inr rfl⟩
  · cases h

theorem readArray_congr {text text' : List Char}
    (h : Lexer.run .ready text = Lexer.run .ready text') : readArray text = readArray text' := by
  simp only [readArray, Json.readAll, Json.tokens, String.toList_ofList, h]

/-- In front of the bracket that closes an array of records there is, apart from blanks, the bracket
that opened it or the brace of a record, and the blanks make no difference. -/
theorem readArray_closed {body : List Char} {events : List Event}
    (h : readArray (body ++ [']']) = .ok events) : ∃ core c blanks,
      body = core ++ c :: blanks ∧ (c = '[' ∨ c = '\x7d') ∧
      (∀ b ∈ blanks, Lexer.isBlank b = true) ∧
      readArray (core ++ [c] ++ [']']) = .ok events := by
  have hread : arrayReader (Lexer.run .ready (body ++ [']'])) = .ok (events, []) := by
    have hall := Json.readAll_ok_iff.mp h
    rwa [Json.tokens, String.toList_ofList] at hall
  obtain ⟨front, last, htokens, hlast⟩ := arrayReader_last hread
  have hchar : last.char? ≠ none := by
    rcases hlast with rfl | rfl <;> exact Option.some_ne_none _
  have hclose : Token.closeArray.char? ≠ none := Option.some_ne_none _
  have hfeed := Lexer.feed_of_run_concat rfl hclose hchar htokens
  rcases Lexer.feed_ready_cases (congrArg Prod.snd hfeed) with
    hall | ⟨core, c, blanks, last', rfl, hblanks, hready, hstep, hend⟩
  · rw [Lexer.feed_blanks hall] at hfeed
    simp at hfeed
  · rw [hfeed, List.getLast?_concat, Option.some_inj] at hend
    have hsound := Lexer.feed_sound Lexer.ready_sound core
    have hstop : (Lexer.feed .ready core).2 ≠ .stopped := by
      intro hstop
      rw [hstop] at hstep
      cases hstep
    have hc (d : Char) (hd : last.char? = some d) : d = c :=
      ((Lexer.step_accounts hsound hstop c).char last
        (List.mem_of_getLast? (hend ▸ hstep)) d hd).1
    refine ⟨core, c, blanks, rfl, ?_, hblanks, ?_⟩
    · rcases hlast with rfl | rfl
      · exact .inl (hc '[' rfl).symm
      · exact .inr (hc '\x7d' rfl).symm
    · rw [← h]
      apply readArray_congr
      have hsplit : core ++ c :: blanks ++ [']'] = (core ++ [c]) ++ (blanks ++ [']']) := by simp
      rw [hsplit, Lexer.run_append, Lexer.run_append, hready, Lexer.run_append,
        Lexer.feed_blanks hblanks, List.nil_append]

/-- Blanks around a recording make no difference. -/
theorem read_padded {lead trail : String} (hlead : lead.toList.all Text.isBlank)
    (htrail : trail.toList.all Text.isBlank) (text : String) :
    read (lead ++ text ++ trail) = read text := by
  have htrim := Text.trim_append (List.all_eq_true.mp hlead) (List.all_eq_true.mp htrail)
    text.toList
  unfold read
  rw [String.toList_append, String.toList_append, htrim]

/-- A complete recording is an array with nothing but blanks around it. -/
theorem array_of_read {text : String} {events : List Event}
    (h : read text = .ok ⟨events, true⟩) : ∃ lead body trail,
      text.toList = lead ++ (body ++ [']']) ++ trail ∧ (∀ c ∈ lead, Text.isBlank c) ∧
      (∀ c ∈ trail, Text.isBlank c) ∧ body.head? = some '[' ∧
      readArray (body ++ [']']) = .ok events := by
  obtain ⟨lead, trail, htext, hlead, htrail⟩ := Text.trim_eq text.toList
  have hopen (chars : List Char) : readOpen chars ≠ .ok ⟨events, true⟩ := by
    unfold readOpen
    split <;> simp
  simp only [read] at h
  split at h
  · cases h
  · rename_i first rest htrim
    split_ifs at h with hfirst hlast
    · split at h
      · rename_i events' harray
        cases h
        obtain ⟨body, hbody⟩ := List.getLast?_eq_some_iff.mp hlast
        rw [hbody] at htext harray
        rw [htrim, not_not.mp hfirst] at hbody
        refine ⟨lead, body, trail, htext, hlead, htrail, ?_, harray⟩
        cases body with
        | nil => simp at hbody
        | cons c body =>
          rw [List.cons_append, List.cons.injEq] at hbody
          rw [List.head?_cons, ← hbody.1]
      · exact absurd h (hopen _)
    · exact absurd h (hopen _)

/-- Whatever commas and blanks stand in place of the closing bracket of a complete recording, and of
what follows it, the events are the same, and the recording is incomplete. Blanks around any text
make no difference. -/
theorem read_reopened :
    (∀ (text : String) (events : List Event), read text = .ok ⟨events, true⟩ →
      ∃ before after : String, text = before ++ "]" ++ after ∧ ']' ∉ after.toList ∧
        ∀ run : String, run.toList.all separates → read (before ++ run) = .ok ⟨events, false⟩) ∧
    ∀ lead text trail : String, lead.toList.all Text.isBlank → trail.toList.all Text.isBlank →
      read (lead ++ text ++ trail) = read text := by
  constructor
  · intro text events h
    obtain ⟨lead, body, trail, htext, hlead, htrail, hfirst, harray⟩ := array_of_read h
    refine ⟨String.ofList (lead ++ body), String.ofList trail, ?_, ?_, ?_⟩
    · rw [← String.toList_inj, htext]
      simp
    · rw [String.toList_ofList]
      intro hm
      have hblank := htrail ']' hm
      cases hblank
    · intro run hrun
      obtain ⟨core, c, blanks, rfl, hc, hblanks, hclosed⟩ := readArray_closed harray
      have hseparates : separates c = false := by
        rcases hc with rfl | rfl <;> decide
      have hrest : ∀ b ∈ blanks ++ run.toList, separates b := by
        intro b hb
        rcases List.mem_append.mp hb with hb | hb
        · simp [separates, Json.Lexer.blank_of_isBlank (hblanks b hb)]
        · exact List.all_eq_true.mp hrun b hb
      have hsplit : String.ofList (lead ++ (core ++ c :: blanks)) ++ run =
          String.ofList lead ++ String.ofList (core ++ c :: (blanks ++ run.toList)) ++ "" := by
        rw [← String.toList_inj]
        simp
      have hlead' : (String.ofList lead).toList.all Text.isBlank := by
        rw [String.toList_ofList]
        exact List.all_eq_true.mpr hlead
      have hread := read_separated (by simpa [List.head?_append] using hfirst) hseparates
        (by rcases hc with rfl | rfl <;> decide) hrest
      rw [hsplit, read_padded hlead' rfl, hread, readOpen, openBody_concat hseparates, hclosed]
  · intro lead text trail hlead htrail
    exact read_padded hlead htrail text

/-- A record with brackets of its own, among blanks that JSON does not know. -/
def bracketed : String := "\u2003[\x7b\"type\":\"ping\",\"data\":[\"]\"]\x7d \n]\u00a0"

theorem read_reopened_bracketed :
    read bracketed = .ok ⟨[⟨0, .unknown⟩], true⟩ ∧
      (∃ before after, bracketed = before ++ "]" ++ after ∧ ']' ∉ after.toList ∧
        read (before ++ ",\u2028, ") = .ok ⟨[⟨0, .unknown⟩], false⟩) ∧
      read ("\n" ++ bracketed ++ "\u3000") = read bracketed := by
  have hread : read bracketed = .ok ⟨[⟨0, .unknown⟩], true⟩ := by decide +kernel
  obtain ⟨before, after, htext, hafter, hreopened⟩ := read_reopened.1 bracketed _ hread
  have hpadded := read_reopened.2 "\n" bracketed "\u3000" (by decide) (by decide)
  exact ⟨hread, ⟨before, after, htext, hafter, hreopened _ (by decide)⟩, hpadded⟩

end Recording

end SessionPlayback
