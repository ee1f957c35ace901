import SessionPlayback.Recording
import SessionPlayback.Proofs.Event.Record

/-!
The layout of a recording: the records stand one behind the other, a comma and a line break between
them. Closed behind any of its records the text is the array of the events so far, and closed within
a record it is no array at all.
-/

namespace SessionPlayback

open Json (Token Lexer)

namespace Event

/-- A record is an object that is not empty. -/
theorem render_eq_cons (e : Event) : ∃ c rest, e.render.toList =
    '\x7b' :: c :: rest ++ ['\x7d'] := by
  obtain ⟨c, rest, h⟩ : ∃ c rest, Json.renderMembers e.fields = c :: rest := by
    unfold fields
    cases e.kind.members <;> exact ⟨_, _, rfl⟩
  exact ⟨c, rest, by simp [toList_render, Json.renderChars, h]⟩

/-- A part of a record begins with its brace. -/
theorem cut_eq_cons {e : Event} {cut : List Char} (hcut : cut <+: e.render.toList)
    (hne : cut ≠ []) : ∃ more, cut = '\x7b' :: more := by
  obtain ⟨c, rest, hr⟩ := e.render_eq_cons
  rw [hr] at hcut
  obtain ⟨more, hmore, -⟩ := (List.prefix_cons_iff.mp hcut).resolve_left hne
  exact ⟨more, hmore⟩

end Event

namespace Recording

/-- The text in front of the record that follows some others. -/
def front : List Event → String
  | [] => "[\n"
  | e :: rest => write (e :: rest) false ++ ",\n"

theorem write_true (events : List Event) : write events true = write events false ++ "\n]" := by
  simp [write]

theorem toList_write_nil : (write [] false).toList = ['[', '\n'] := rfl

theorem toList_write_cons (e : Event) (rest : List Event) :
    (write (e :: rest) false).toList = '[' :: '\n' :: e.render.toList ++
      rest.flatMap fun e => ',' :: '\n' :: e.render.toList := by
  simp [write, Json.intercalate_cons, List.flatMap_map]

/-- The next record comes behind the text in front of it. -/
theorem write_concat (before : List Event) (e : Event) :
    write (before ++ [e]) false = front before ++ e.render := by
  apply String.toList_inj.mp
  cases before with
  | nil => simp [toList_write_cons, front]
  | cons b before =>
    rw [List.cons_append, toList_write_cons, front, String.toList_append, String.toList_append,
      toList_write_cons]
    simp

theorem write_eq_cons (events : List Event) (complete : Bool) :
    ∃ rest, (write events complete).toList = '[' :: rest :=
  ⟨_, by simp only [write, String.toList_append]; rfl⟩

theorem front_eq_cons (before : List Event) : ∃ rest, (front before).toList = '[' :: rest := by
  cases before with
  | nil => exact ⟨['\n'], rfl⟩
  | cons e before =>
    obtain ⟨rest, h⟩ := write_eq_cons (e :: before) false
    exact ⟨rest ++ [',', '\n'], by simp [front, h]⟩

/-- A recording in progress begins with the bracket and ends with a brace. -/
theorem write_concat_eq (before : List Event) (e : Event) :
    ∃ body, (write (before ++ [e]) false).toList = '[' :: body ++ ['\x7d'] := by
  obtain ⟨rest, hf⟩ := front_eq_cons before
  obtain ⟨c, body, hr⟩ := e.render_eq_cons
  exact ⟨rest ++ '\x7b' :: c :: body, by simp [write_concat, hf, hr]⟩

theorem feed_write_cons (e : Event) (rest : List Event) :
    Lexer.feed .ready (write (e :: rest) false).toList =
      (.openArray :: e.recordTokens ++ rest.flatMap fun e => .comma :: e.recordTokens, .ready) := by
  have hrest : Lexer.feed .ready (rest.flatMap fun e => ',' :: '\n' :: e.render.toList) =
      (rest.flatMap fun e => .comma :: e.recordTokens, .ready) := by
    induction rest with
    | nil => rfl
    | cons e rest ih =>
      have hsep : Lexer.feed .ready [',', '\n'] = ([.comma], .ready) := rfl
      have hs : ',' :: '\n' :: e.render.toList = [',', '\n'] ++ e.render.toList := rfl
      rw [List.flatMap_cons, List.flatMap_cons, hs, List.append_assoc,
        Lexer.feed_append_of hsep, Lexer.feed_append_of e.feed_render, ih]
      simp
  have hopen : Lexer.feed .ready ['[', '\n'] = ([.openArray], .ready) := rfl
  have hs : '[' :: '\n' :: e.render.toList = ['[', '\n'] ++ e.render.toList := rfl
  rw [toList_write_cons, hs, List.append_assoc, Lexer.feed_append_of hopen,
    Lexer.feed_append_of e.feed_render, hrest]
  simp

def readItem (reversed : List Event) : Json.Reader (List Event) := fun tokens =>
  (Event.reader (Json.nestingLimit - 2) tokens).map fun (event, rest) => (event :: reversed, rest)

theorem readItem_record (e : Event) (reversed : List Event) (rest : List Token) :
    readItem reversed (e.recordTokens ++ rest) = .ok (e :: reversed, rest) := by
  rw [readItem, Event.reader_record]
  rfl

theorem readItem_cut {tokens : List Token} (h : .closeObject ∉ tokens) (reversed : List Event) :
    ∃ fault, readItem reversed (.openObject :: tokens) = .error fault := by
  obtain ⟨fault, hf⟩ := Event.reader_cut h (Json.nestingLimit - 2)
  exact ⟨fault, by rw [readItem, hf]; rfl⟩

theorem tokens_append {front back : List Char} {tokens : List Token}
    (h : Lexer.feed .ready front = (tokens, .ready)) :
    Json.tokens (String.ofList (front ++ back)) = tokens ++ Lexer.run .ready back := by
  rw [Json.tokens, String.toList_ofList, Lexer.run_append, h]

/-- Records that are closed behind one of them are the array of the events. -/
theorem readArray_write {events : List Event} {text : List Char}
    (h : Lexer.run .ready text = [.closeArray]) :
    readArray ((write events false).toList ++ text) = .ok events := by
  cases events with
  | nil =>
    have hopen : Lexer.feed .ready (write [] false).toList = ([.openArray], .ready) := rfl
    rw [readArray, Json.readAll, tokens_append hopen, h]
    rfl
  | cons e rest =>
    have hitems : Json.items .closeArray readItem []
        (e.recordTokens ++ ((rest.flatMap fun e => .comma :: e.recordTokens) ++ [.closeArray])) =
        .ok (rest.foldl (fun reversed e => e :: reversed) [e], []) :=
      Json.items_chunks (by simp) (by simp) (readItem_record e [])
        (fun e _ => readItem_record e) []
    have harray : arrayReader (.openArray :: (e.recordTokens ++
        ((rest.flatMap fun e => .comma :: e.recordTokens) ++ [.closeArray]))) =
        .ok (e :: rest, []) := by
      change (Json.items .closeArray readItem [] _).map _ = _
      rw [hitems, List.foldl_flip_cons_eq_append']
      simp [Except.map]
    rw [readArray, Json.readAll, tokens_append (feed_write_cons e rest), h, List.append_assoc,
      List.cons_append, harray]

/-- The tokens of a record that is cut off: its brace, and none that closes it. -/
theorem run_cut {e : Event} {cut text : List Char} (hcut : cut <+: e.render.toList)
    (hne : cut ≠ []) (hn : cut ≠ e.render.toList) (htext : '\x7d' ∉ text) :
    ∃ tokens, Lexer.run .ready (cut ++ text) = .openObject :: tokens ∧ .closeObject ∉ tokens := by
  obtain ⟨more, rfl⟩ := Event.cut_eq_cons hcut hne
  have hclose := Json.closeObject_notMem_cut e.fields_scalar (e.toList_render ▸ hcut)
    (e.toList_render ▸ hn) htext
  exact ⟨Lexer.run .ready (more ++ text), rfl, fun h => hclose (List.mem_cons_of_mem _ h)⟩

/-- Records of which the next is cut off are no array, closed or not. -/
theorem readArray_cut (before : List Event) {e : Event} {cut text : List Char}
    (hcut : cut <+: e.render.toList) (hne : cut ≠ []) (hn : cut ≠ e.render.toList)
    (htext : '\x7d' ∉ text) :
    ∃ fault, readArray ((front before).toList ++ (cut ++ text)) = .error fault := by
  obtain ⟨tokens, htokens, hclose⟩ := run_cut hcut hne hn htext
  have hitem := readItem_cut hclose
  obtain ⟨fault, hf⟩ : ∃ fault, arrayReader
      (Json.tokens (String.ofList ((front before).toList ++ (cut ++ text)))) = .error fault := by
    cases before with
    | nil =>
      have hopen : Lexer.feed .ready (front []).toList = ([.openArray], .ready) := rfl
      obtain ⟨fault, hf⟩ := hitem []
      refine ⟨fault, ?_⟩
      rw [tokens_append hopen, htokens]
      change (Json.items .closeArray readItem [] (.openObject :: tokens)).map _ = _
      simp [Json.items, hf, Except.map]
    | cons b before =>
      have hcomma : Lexer.feed .ready (front (b :: before)).toList =
          (.openArray :: (b.recordTokens ++ ((before.flatMap fun e => .comma :: e.recordTokens) ++
            [.comma])), .ready) := by
        rw [front, String.toList_append, Lexer.feed_append_of (feed_write_cons b before)]
        simp only [List.cons_append, List.append_assoc]
        rfl
      obtain ⟨fault, hf⟩ : ∃ fault, Json.items .closeArray readItem []
          (b.recordTokens ++ ((before.flatMap fun e => .comma :: e.recordTokens) ++
            .comma :: .openObject :: tokens)) = .error fault :=
        Json.items_fault (by simp) (by simp) (readItem_record b [])
          (fun e _ => readItem_record e) hitem
      refine ⟨fault, ?_⟩
      rw [tokens_append hcomma, htokens, List.cons_append, List.append_assoc, List.append_assoc]
      change (Json.items .closeArray readItem [] _).map _ = _
      rw [List.singleton_append, hf]
      rfl
  exact ⟨fault, by rw [readArray, Json.readAll, hf]⟩

end Recording

end SessionPlayback
