import SessionPlayback.Proofs.Event.Record
import Mathlib.Data.List.Forall2

/-!
The texts of a record. Whatever the order of the members, the names of the type, the blanks between
the tokens and the further members are, the event that is read is the same.
-/

namespace SessionPlayback

open Json (Token Lexer)

namespace Json

/-- The texts of the name and of the value of a member, blanks around them included. -/
def Spells (text : String × String) (m : String × Json) : Prop :=
  readAll (value 0) text.1 = .ok (.string m.1) ∧
    readAll (value (nestingLimit - 1)) text.2 = .ok m.2

def memberChars (text : String × String) : List Char := text.1.toList ++ ':' :: text.2.toList

def objectText (texts : List (String × String)) : String :=
  "\x7b" ++ ",".intercalate (texts.map fun text => text.1 ++ ":" ++ text.2) ++ "\x7d"

def spelledTokens (text : String × String) (m : String × Json) : List Token :=
  .string m.1 :: .colon :: tokens text.2

variable {text : String × String} {m : String × Json}

/-- The name of a member is one token. -/
theorem Spells.name_tokens (h : Spells text m) : tokens text.1 = [.string m.1] :=
  eq_of_value_scalar (.string m.1) (readAll_ok_iff.mp h.1)

theorem Spells.takes (h : Spells text m) :
    Takes (value (nestingLimit - 1)) (tokens text.2) m.2 := by
  obtain ⟨front, hfront, htakes⟩ := value_local _ _ _ _ (readAll_ok_iff.mp h.2)
  rw [hfront, List.append_nil]
  exact htakes

theorem Spells.member (h : Spells text m) (reversed : List (String × Json)) (rest : List Token) :
    member (value (nestingLimit - 1)) reversed (spelledTokens text m ++ rest) =
      .ok (m :: reversed, rest) := by
  simp [Json.member, spelledTokens, name, h.takes.read, Except.map]

theorem Spells.run (h : Spells text m) {c : Char} (hc : Lexer.Delimits c) (rest : List Char) :
    Lexer.run .ready (memberChars text ++ c :: rest) =
      spelledTokens text m ++ Lexer.run .ready (c :: rest) := by
  have hcolon : Lexer.Delimits ':' := ⟨by decide, by decide, by decide⟩
  have hname : Lexer.run .ready text.1.toList = [.string m.1] := h.name_tokens
  have hunbroken : ∀ token ∈ Lexer.run .ready text.1.toList, token.isBroken = false := by
    rw [hname]
    intro token ht
    rw [List.mem_singleton.mp ht]
    rfl
  have hstart (chars : List Char) :
      Lexer.run .ready (':' :: chars) = .colon :: Lexer.run .ready chars := rfl
  rw [memberChars, List.append_assoc, List.cons_append,
    Lexer.run_append_delimited hunbroken hcolon, hname, hstart,
    Lexer.run_append_delimited h.takes.unbroken hc]
  rfl

theorem toList_objectText (text : String × String) (texts : List (String × String)) :
    (objectText (text :: texts)).toList = '\x7b' :: (memberChars text ++
      ((texts.flatMap fun text => ',' :: memberChars text) ++ ['\x7d'])) := by
  simp [objectText, intercalate_cons, List.flatMap_map, memberChars]

/-- The tokens of members and of the brace behind them. -/
theorem run_members {texts : List (String × String)} {members : List (String × Json)}
    (h : Spells text m) (hs : List.Forall₂ Spells texts members) (trail : List Char) :
    Lexer.run .ready (memberChars text ++
        ((texts.flatMap fun text => ',' :: memberChars text) ++ '\x7d' :: trail)) =
      spelledTokens text m ++
        (((texts.zip members).flatMap fun b => .comma :: spelledTokens b.1 b.2) ++
          .closeObject :: Lexer.run .ready trail) := by
  induction hs generalizing text m with
  | nil => exact h.run Numeral.ends_closeObject.toDelimits trail
  | @cons text' m' texts members h' _ ih =>
    have hstart (chars : List Char) :
        Lexer.run .ready (',' :: chars) = .comma :: Lexer.run .ready chars := rfl
    simp only [List.flatMap_cons, List.cons_append, List.append_assoc, List.zip_cons_cons]
    rw [h.run Numeral.ends_comma.toDelimits, hstart, ih h']

theorem items_members {texts : List (String × String)} {members : List (String × Json)}
    (h : Spells text m) (hs : List.Forall₂ Spells texts members) (rest : List Token) :
    items .closeObject (Json.member (value (nestingLimit - 1))) []
        (spelledTokens text m ++
          (((texts.zip members).flatMap fun b => .comma :: spelledTokens b.1 b.2) ++
            .closeObject :: rest)) =
      .ok ((m :: members).reverse, rest) := by
  have hitem : ∀ b ∈ texts.zip members, ∀ (reversed : List (String × Json)) (rest : List Token),
      Json.member (value (nestingLimit - 1)) reversed (spelledTokens b.1 b.2 ++ rest) =
        .ok (b.2 :: reversed, rest) :=
    fun b hb => ((List.forall₂_iff_zip.mp hs).2 hb).member
  have hmembers : (texts.zip members).map (·.2) = members :=
    List.map_snd_zip (Nat.le_of_eq hs.length_eq.symm)
  have hfold : (texts.zip members).foldl (fun reversed b => b.2 :: reversed) [m] =
      (m :: members).reverse := by
    have hmap := @List.foldl_map _ _ _ (·.2) (fun reversed m => m :: reversed)
      (texts.zip members) [m]
    rw [hmembers, List.foldl_flip_cons_eq_append'] at hmap
    rw [← hmap, List.reverse_cons]
  rw [← hfold]
  exact items_chunks (by simp) (by simp) (h.member []) hitem rest

/-- The members of an object are read in their order, whatever blanks there are. -/
theorem read_objectText {texts : List (String × String)} {members : List (String × Json)}
    (h : List.Forall₂ Spells texts members) {lead trail : String}
    (hlead : ∀ c ∈ lead.toList, Lexer.isBlank c = true)
    (htrail : ∀ c ∈ trail.toList, Lexer.isBlank c = true) :
    Json.read (lead ++ objectText texts ++ trail) = .ok (.object members) := by
  have hend : Lexer.run .ready trail.toList = [] := by
    rw [Lexer.run_eq, Lexer.feed_blanks htrail]
    rfl
  have htokens : tokens (lead ++ objectText texts ++ trail) =
      Lexer.run .ready ((objectText texts).toList ++ trail.toList) := by
    rw [tokens, String.toList_append, String.toList_append, List.append_assoc, Lexer.run_append,
      Lexer.feed_blanks hlead]
    rfl
  have hopen (chars : List Char) :
      Lexer.run .ready ('\x7b' :: chars) = .openObject :: Lexer.run .ready chars := rfl
  have hvalue : value (nestingLimit - 1 + 1) (tokens (lead ++ objectText texts ++ trail)) =
      .ok (.object members, []) := by
    rw [htokens]
    cases h with
    | nil =>
      have hclose : Lexer.run .ready ((objectText []).toList ++ trail.toList) =
          .openObject :: .closeObject :: Lexer.run .ready trail.toList := rfl
      rw [hclose, hend]
      rfl
    | cons h hs =>
      rw [toList_objectText, List.cons_append, List.append_assoc, List.append_assoc,
        List.singleton_append, hopen, run_members h hs, hend, value_openObject, items_members h hs]
      simp [Except.map]
  exact readAll_ok_iff.mpr hvalue

end Json

namespace Event

/-- A text that is an object of the members of an event is read as that event. -/
theorem read_of_object {e : Event} {members : List (String × Json)} (h : e.Spelled members)
    {text : String} (htext : Json.read text = .ok (.object members)) : read text = .ok e := by
  have hvalue : Json.value (Json.nestingLimit - 1 + 1) (Json.tokens text) =
      .ok (.object members, []) := Json.readAll_ok_iff.mp htext
  exact Json.readAll_ok_iff.mpr (reader_of_value h hvalue)

/-- The text of a record is read as its event. -/
theorem read_of_render (e : Event) : read e.render = .ok e := by
  have htokens : Json.tokens e.render = e.recordTokens ++ [] := by
    rw [Json.tokens, Lexer.run_eq, e.feed_render]
    rfl
  apply Json.readAll_ok_iff.mpr
  rw [htokens]
  exact reader_record e _ []

/-- An event is read from every text that is an object of its members: from the record that is
written for it, and from any other that has the members in another order, further members among
them, the other name of the type, or blanks anywhere between two tokens. -/
theorem read_spelled (e : Event) :
    (∀ members, e.Spelled members → ∀ text, Json.read text = .ok (.object members) →
      read text = .ok e) ∧
    (∀ members, e.Spelled members → ∀ texts, List.Forall₂ Json.Spells texts members →
      ∀ lead trail : String, (∀ c ∈ lead.toList, Lexer.isBlank c = true) →
        (∀ c ∈ trail.toList, Lexer.isBlank c = true) →
        read (lead ++ Json.objectText texts ++ trail) = .ok e) ∧
    read e.render = .ok e := by
  refine ⟨fun members h text htext => read_of_object h htext, ?_, e.read_of_render⟩
  intro members h texts htexts lead trail hlead htrail
  exact read_of_object h (Json.read_objectText htexts hlead htrail)

/-- The start of a session without an offset, its key without a value and a nested member in front;
and a message that goes neither way, under the short name of its type and with blanks, with a
further member twice. -/
theorem read_spelled_rearranged :
    read (" \x7b\"size\":[1,\x7b\"type\":0\x7d],\"key\":null,\"start\":5," ++
        "\n\"username\":\"root\",\"type\":\"session-start\"\x7d") =
      .ok ⟨0, .start { username := some "root", startTime := some 5 }⟩ ∧
    read ("\n" ++ Json.objectText [("\"size\" ", "2"), (" \"size\"", " [ ]"),
        ("\"d\\u0061ta\"", "\"aGk=\""), ("\"direction\"", "\"other\""), ("\"type\"", "\"message\""),
        ("\"offset\"", " -3\t")] ++ " ") =
      .ok ⟨-3, .message ⟨.other, "aGk="⟩⟩ := by
  constructor
  · have hspelled : Spelled ⟨0, .start { username := some "root", startTime := some 5 }⟩
        [("size", .array [.ofInt 1, .object [("type", .ofInt 0)]]), ("key", .null),
          ("start", .ofInt 5), ("username", .string "root"), ("type", .string "session-start")] :=
      ⟨[], "session-start", ["key"],
        [("size", .array [.ofInt 1, .object [("type", .ofInt 0)]])], .inr ⟨rfl, rfl⟩, by decide,
        by decide, by simp [Kind.memberNames], (List.reverse_perm _).symm⟩
    exact (read_spelled _).1 _ hspelled _ rfl
  · have hspelled : Spelled ⟨-3, .message ⟨.other, "aGk="⟩⟩
        [("size", .ofInt 2), ("size", .array []), ("data", .string "aGk="),
          ("direction", .string "other"), ("type", .string "message"), ("offset", .ofInt (-3))] :=
      ⟨[("offset", .ofInt (-3))], "message", [], [("size", .array []), ("size", .ofInt 2)],
        .inl rfl, by decide, by decide, by simp [Kind.memberNames], (List.reverse_perm _).symm⟩
    apply (read_spelled _).2.1 _ hspelled
    · exact .cons ⟨rfl, rfl⟩ <| .cons ⟨rfl, rfl⟩ <| .cons ⟨rfl, rfl⟩ <| .cons ⟨rfl, rfl⟩ <|
        .cons ⟨rfl, rfl⟩ <| .cons ⟨rfl, rfl⟩ .nil
    · simp [Lexer.isBlank]
    · simp [Lexer.isBlank]

end Event

end SessionPlayback
