import SessionPlayback.Proofs.Recording.Layout
import SessionPlayback.Proofs.Text.Utf8
import Mathlib.Data.List.DropRight

/-!
Recordings that were cut off. The bytes of a recording may stop anywhere: within a record they are
refused, and anywhere else they are read as the events whose records are there.
-/

namespace SessionPlayback

namespace Text

variable {p q : Char → Bool}

theorem dropEndWhile_eq_nil {text : List Char} :
    dropEndWhile p text = [] ↔ ∀ c ∈ text, p c := List.rdropWhile_eq_nil_iff

theorem dropEndWhile_prefix (text : List Char) : dropEndWhile p text <+: text :=
  List.rdropWhile_prefix p text

theorem dropEndWhile_append (front back : List Char) : dropEndWhile p (front ++ back) =
    if dropEndWhile p back = [] then dropEndWhile p front else front ++ dropEndWhile p back := by
  simp only [dropEndWhile, List.reverse_append, List.dropWhile_append, List.isEmpty_iff,
    List.reverse_eq_nil_iff]
  split <;> simp

theorem dropEndWhile_cons {c : Char} (hc : p c = false) (text : List Char) :
    dropEndWhile p (c :: text) = c :: dropEndWhile p text := by
  have h := dropEndWhile_append (p := p) [c] text
  have hs : dropEndWhile p [c] = [c] := by simp [dropEndWhile, hc]
  rw [List.singleton_append, hs] at h
  split at h <;> simp_all

/-- Characters that would be dropped anyway may be dropped before. -/
theorem dropEndWhile_dropEndWhile (h : ∀ c, p c → q c) (text : List Char) :
    dropEndWhile q (dropEndWhile p text) = dropEndWhile q text := by
  induction text using List.reverseRecOn with
  | nil => rfl
  | append_singleton text c ih =>
    by_cases hp : p c
    · have hdrop : dropEndWhile p (text ++ [c]) = dropEndWhile p text :=
        List.rdropWhile_concat_pos p text c hp
      have hdrop' : dropEndWhile q (text ++ [c]) = dropEndWhile q text :=
        List.rdropWhile_concat_pos q text c (h c hp)
      rw [hdrop, hdrop', ih]
    · have hkeep : dropEndWhile p (text ++ [c]) = text ++ [c] :=
        List.rdropWhile_concat_neg p text c hp
      rw [hkeep]

theorem trim_cons {c : Char} (hc : isBlank c = false) (text : List Char) :
    trim (c :: text) = c :: dropEndWhile isBlank text := by
  rw [trim, List.dropWhile_cons_of_neg (by simp [hc]), dropEndWhile_cons hc]

end Text

namespace Recording

def separates (c : Char) : Bool := c = ',' || Text.isBlank c

theorem openBody_eq (text : List Char) : openBody text = Text.dropEndWhile separates text := rfl

theorem openBody_dropEndWhile (text : List Char) :
    openBody (Text.dropEndWhile Text.isBlank text) = openBody text :=
  Text.dropEndWhile_dropEndWhile (fun _ h => by simp [h]) text

theorem readOpen_congr {text text' : List Char} (h : openBody text = openBody text') :
    readOpen text = readOpen text' := by
  rw [readOpen, readOpen, h]

/-- A text that is no array as it stands is closed before it is read. -/
theorem read_open {text : List Char} (hfirst : text.head? = some '[')
    (h : (Text.dropEndWhile Text.isBlank text).getLast? = some ']' →
      ∃ fault, readArray (Text.dropEndWhile Text.isBlank text) = .error fault) :
    read (String.ofList text) = readOpen text := by
  obtain ⟨rest, rfl⟩ := List.head?_eq_some_iff.mp hfirst
  have hb : Text.isBlank '[' = false := by decide
  rw [Text.dropEndWhile_cons hb] at h
  have hopen : readOpen ('[' :: Text.dropEndWhile Text.isBlank rest) = readOpen ('[' :: rest) := by
    apply readOpen_congr
    rw [← Text.dropEndWhile_cons hb, openBody_dropEndWhile]
  simp only [read, String.toList_ofList, Text.trim_cons hb, ne_eq, not_true_eq_false, if_false,
    hopen]
  split
  · rename_i hl
    obtain ⟨fault, hf⟩ := h hl
    rw [hf]
  · rfl

theorem openBody_separated {c : Char} (hc : separates c = false) (body : List Char)
    {sep : List Char} (hsep : ∀ s ∈ sep, separates s) :
    openBody (body ++ c :: sep) = body ++ [c] := by
  have hnil : Text.dropEndWhile separates sep = [] := Text.dropEndWhile_eq_nil.mpr hsep
  rw [openBody_eq, Text.dropEndWhile_append, Text.dropEndWhile_cons hc, hnil]
  rfl

theorem openBody_concat {c : Char} (hc : separates c = false) (body : List Char) :
    openBody (body ++ [c]) = body ++ [c] :=
  openBody_separated hc body fun _ hs => absurd hs List.not_mem_nil

/-- Separators behind the last record make no difference. -/
theorem read_separated {body sep : List Char} {c : Char} (hfirst : (body ++ [c]).head? = some '[')
    (hc : separates c = false) (hn : c ≠ ']') (hsep : ∀ s ∈ sep, separates s) :
    read (String.ofList (body ++ c :: sep)) = readOpen (body ++ [c]) := by
  have hblank : Text.isBlank c = false := by
    simp only [separates, Bool.or_eq_false_iff] at hc
    exact hc.2
  have hclose : separates ']' = false := by decide
  have hfirst' : (body ++ c :: sep).head? = some '[' := by
    rw [List.append_cons, List.head?_append, hfirst]
    rfl
  have hopen : readOpen (body ++ c :: sep) = readOpen (body ++ [c]) := by
    apply readOpen_congr
    rw [openBody_separated hc body hsep, openBody_concat hc body]
  rw [read_open hfirst', hopen]
  -- A text that ends with `c` or a separator is not taken for a closed array.
  intro hlast
  rw [Text.dropEndWhile_append, Text.dropEndWhile_cons hblank, if_neg (List.cons_ne_nil _ _),
    List.getLast?_append_of_ne_nil _ (List.cons_ne_nil _ _)] at hlast
  rcases List.mem_cons.mp (List.mem_of_getLast? hlast) with hl | hl
  · exact absurd hl.symm hn
  · have := hsep _ ((Text.dropEndWhile_prefix sep).subset hl)
    simp [hclose] at this

/-- A recording in progress, with what may stand behind its last record. -/
theorem read_write_false (events : List Event) {sep : String}
    (hsep : ∀ c ∈ sep.toList, separates c) :
    read (write events false ++ sep) = .ok ⟨events, false⟩ := by
  have htext : write events false ++ sep =
      String.ofList ((write events false).toList ++ sep.toList) := by simp
  rcases List.eq_nil_or_concat events with rfl | ⟨before, e, rfl⟩
  · have hopen : readOpen ['['] = .ok ⟨[], false⟩ := rfl
    have hsep' : ∀ c ∈ '\n' :: sep.toList, separates c := by
      intro c hc
      rcases List.mem_cons.mp hc with rfl | hc
      · rfl
      · exact hsep c hc
    have hread : read (String.ofList ([] ++ '[' :: '\n' :: sep.toList)) = readOpen ([] ++ ['[']) :=
      read_separated rfl (by decide) (by decide) hsep'
    rw [List.nil_append, List.nil_append, hopen] at hread
    rw [htext, toList_write_nil]
    exact hread
  · obtain ⟨body, hbody⟩ := write_concat_eq before e
    have hrecords : readOpen (('[' :: body) ++ ['\x7d']) = .ok ⟨before ++ [e], false⟩ := by
      rw [readOpen, openBody_concat (by decide), ← hbody, readArray_write rfl]
    rw [htext, List.concat_eq_append, hbody, List.append_assoc, ← hrecords]
    exact read_separated rfl (by decide) (by decide) hsep

/-- A recording that was closed. -/
theorem read_write_true (events : List Event) : read (write events true) = .ok ⟨events, true⟩ := by
  obtain ⟨rest, hrest⟩ := write_eq_cons events false
  have htext : (write events true).toList = '[' :: (rest ++ ['\n', ']']) := by
    simp [write_true, hrest]
  have harray : readArray ('[' :: (rest ++ ['\n', ']'])) = .ok events := by
    rw [← List.cons_append, ← hrest]
    exact readArray_write rfl
  have hdrop : Text.dropEndWhile Text.isBlank (rest ++ ['\n', ']']) = rest ++ ['\n', ']'] := by
    rw [Text.dropEndWhile_append]
    rfl
  have hlast : ('[' :: (rest ++ ['\n', ']'])).getLast? = some ']' := by
    simp [List.getLast?_cons]
  simp only [read, htext, Text.trim_cons (show Text.isBlank '[' = false by decide), hdrop, ne_eq,
    not_true_eq_false, if_false, hlast, if_true, harray]

/-- A recording that stops within a record. -/
theorem read_cut (before : List Event) {e : Event} {cut : List Char}
    (hcut : cut <+: e.render.toList) (hne : cut ≠ []) (hn : cut ≠ e.render.toList) :
    ∃ error, read (String.ofList ((front before).toList ++ cut)) = .error error := by
  obtain ⟨rest, hf⟩ := front_eq_cons before
  obtain ⟨more, rfl⟩ := Event.cut_eq_cons hcut hne
  -- What is left of the cut record after trimming is a cut record, too.
  have hdrop (p : Char → Bool) (hp : p '\x7b' = false) (text : List Char) (htext : '\x7d' ∉ text) :
      ∃ fault, readArray (Text.dropEndWhile p ((front before).toList ++ '\x7b' :: more) ++ text) =
        .error fault := by
    have hkeep := Text.dropEndWhile_cons hp more
    have hfront := Text.dropEndWhile_prefix (p := p) ('\x7b' :: more)
    rw [Text.dropEndWhile_append, hkeep, if_neg (List.cons_ne_nil _ _), ← hkeep, List.append_assoc]
    refine readArray_cut before (hfront.trans hcut) (by simp [hkeep]) (fun he => hn ?_) htext
    exact hcut.eq_of_length_le (he ▸ hfront.length_le)
  rw [read_open (by rw [hf]; rfl), readOpen]
  · obtain ⟨fault, hfault⟩ := hdrop separates (by decide) [']'] (by decide)
    exact ⟨.json fault, by rw [openBody_eq, hfault]⟩
  · intro _
    simpa using hdrop Text.isBlank (by decide) [] List.not_mem_nil

theorem readBytes_utf8 (text : String) : readBytes (Text.utf8 text) = read text := by
  rw [readBytes, IoFault.textOf, Text.utf8, Text.ofUtf8?_chars, String.ofList_toList]

def EndsInside (events : List Event) (bytes : List UInt8) : Prop :=
  ∃ before e after cut, events = before ++ e :: after ∧
    bytes = Text.utf8 (front before) ++ cut ∧
    cut <+: Text.utf8 e.render ∧ cut ≠ [] ∧ cut ≠ Text.utf8 e.render

/-- The events of `rest`, which follow those of `before`, whose records lie wholly in the bytes. -/
def wholeRecords (bytes : List UInt8) (before : List Event) : List Event → List Event
  | [] => []
  | e :: rest =>
    let more := wholeRecords bytes (before ++ [e]) rest
    if Text.utf8 (write (before ++ [e]) false) <+: bytes then e :: more else more

inductive StopsAfter (bytes : List UInt8) : List Event → Prop where
  | opening (h : bytes <+: Text.utf8 "[") : StopsAfter bytes []
  | records (events : List Event) (sep : String) (hsep : sep.toList.all separates)
      (hlength : (Text.utf8 sep).length ≤ 2)
      (h : bytes = Text.utf8 (write events false ++ sep)) : StopsAfter bytes events

/-- Bytes that stop within a record are refused, be it within a character or behind one. -/
theorem EndsInside.readBytes {events : List Event} {bytes : List UInt8}
    (h : EndsInside events bytes) : ∃ error, readBytes bytes = .error error := by
  obtain ⟨before, e, after, cut, -, rfl, hcut, hne, hn⟩ := h
  rcases Text.prefix_flatMap_encode hcut with
    ⟨chars, hchars, rfl⟩ | ⟨chars, c, octets, -, hoctets, hsome, hpart, rfl⟩
  · have htext : Text.utf8 (front before) ++ chars.flatMap String.utf8EncodeChar =
        Text.utf8 (String.ofList ((front before).toList ++ chars)) := by
      simp [Text.utf8]
    rw [htext, readBytes_utf8]
    refine read_cut before hchars ?_ ?_
    · rintro rfl
      exact hne rfl
    · rintro rfl
      exact hn rfl
  · have htext : Text.utf8 (front before) ++ (chars.flatMap String.utf8EncodeChar ++ octets) =
        ((front before).toList ++ chars).flatMap String.utf8EncodeChar ++ octets := by
      simp [Text.utf8]
    rw [htext, Recording.readBytes, IoFault.textOf, Text.ofUtf8?_cut _ hoctets hsome hpart]
    exact ⟨_, rfl⟩

theorem StopsAfter.readBytes {events : List Event} {bytes : List UInt8}
    (h : StopsAfter bytes events) : readBytes bytes = .ok ⟨events, false⟩ := by
  cases h with
  | opening h =>
    rcases List.prefix_cons_iff.mp h with rfl | ⟨rest, rfl, hrest⟩
    · rfl
    · rw [List.prefix_nil.mp hrest]
      rfl
  | records _ sep hsep _ h =>
    rw [h, readBytes_utf8, read_write_false events (List.all_eq_true.mp hsep)]

theorem utf8_write_concat (before : List Event) (e : Event) :
    Text.utf8 (write (before ++ [e]) false) =
      Text.utf8 (front before) ++ Text.utf8 e.render := by
  rw [write_concat, Text.utf8_append]

/-- The text in front of the next record goes on from the records before it. -/
theorem front_eq_append (before : List Event) :
    ∃ sep, front before = write before false ++ sep := by
  cases before with
  | nil => exact ⟨"", rfl⟩
  | cons e before => exact ⟨",\n", rfl⟩

theorem write_prefix_append (before after : List Event) :
    Text.utf8 (write before false) <+: Text.utf8 (write (before ++ after) false) := by
  induction after using List.reverseRecOn with
  | nil => simp
  | append_singleton after e ih =>
    refine ih.trans ?_
    obtain ⟨sep, hsep⟩ := front_eq_append (before ++ after)
    rw [← List.append_assoc, utf8_write_concat, hsep, Text.utf8_append, List.append_assoc]
    exact List.prefix_append _ _

/-- A record is longer than what may stand behind the record before it. -/
theorem length_write_lt (before : List Event) (e : Event) :
    (Text.utf8 (write before false)).length + 2 <
      (Text.utf8 (write (before ++ [e]) false)).length := by
  have hrender : 2 < (Text.utf8 e.render).length := by
    obtain ⟨c, rest, hr⟩ := e.render_eq_cons
    have hopen : (String.utf8EncodeChar '\x7b').length = 1 := rfl
    have hclose : (String.utf8EncodeChar '\x7d').length = 1 := rfl
    have hc := c.utf8Size_pos
    simp only [Text.utf8, hr, List.cons_append, List.flatMap_cons, List.flatMap_append,
      List.flatMap_nil, List.length_append, hopen, hclose, String.length_utf8EncodeChar]
    omega
  obtain ⟨sep, hsep⟩ := front_eq_append before
  rw [utf8_write_concat, hsep, Text.utf8_append, List.length_append, List.length_append]
  omega

theorem wholeRecords_append (bytes : List UInt8) (before events after : List Event) :
    wholeRecords bytes before (events ++ after) =
      wholeRecords bytes before events ++ wholeRecords bytes (before ++ events) after := by
  induction events generalizing before with
  | nil => simp [wholeRecords]
  | cons e events ih =>
    simp only [List.cons_append, wholeRecords, ih, List.append_assoc, List.nil_append]
    split <;> rfl

theorem wholeRecords_all {bytes : List UInt8} {before events : List Event}
    (h : Text.utf8 (write (before ++ events) false) <+: bytes) :
    wholeRecords bytes before events = events := by
  induction events generalizing before with
  | nil => rfl
  | cons e events ih =>
    rw [List.append_cons] at h
    rw [wholeRecords, if_pos ((write_prefix_append _ _).trans h), ih h]

theorem wholeRecords_none {bytes : List UInt8} {before : List Event} (after : List Event)
    (h : bytes.length ≤ (Text.utf8 (write before false)).length + 2) :
    wholeRecords bytes before after = [] := by
  induction after generalizing before with
  | nil => rfl
  | cons e after ih =>
    have hlt := length_write_lt before e
    have hnot : ¬Text.utf8 (write (before ++ [e]) false) <+: bytes := by
      intro hfront
      have := hfront.length_le
      omega
    rw [wholeRecords, if_neg hnot, ih (by omega)]

theorem StopsAfter.wholeRecords {events : List Event} {bytes : List UInt8}
    (h : StopsAfter bytes events) (after : List Event) :
    wholeRecords bytes [] (events ++ after) = events := by
  cases h with
  | opening h =>
    have hlength : (Text.utf8 "[").length ≤ 2 := by decide
    have := h.length_le
    exact wholeRecords_none after (by omega)
  | records _ sep _ hlength h =>
    rw [Text.utf8_append] at h
    rw [wholeRecords_append, wholeRecords_all (by simp [h]), List.nil_append,
      wholeRecords_none after (by rw [h, List.length_append]; omega), List.append_nil]

theorem prefix_pair {α : Type} {a b : α} {l : List α} (h : l <+: [a, b]) :
    l = [] ∨ l = [a] ∨ l = [a, b] := by
  rcases List.prefix_cons_iff.mp h with rfl | ⟨t, rfl, ht⟩
  · exact .inl rfl
  · rcases List.prefix_cons_iff.mp ht with rfl | ⟨u, rfl, hu⟩
    · exact .inr (.inl rfl)
    · exact .inr (.inr (by rw [List.prefix_nil.mp hu]))

theorem StopsAfter.of_records (events : List Event) :
    StopsAfter (Text.utf8 (write events false)) events :=
  .records events "" (by decide) (by decide) (by simp)

theorem StopsAfter.of_newline (events : List Event) :
    StopsAfter (Text.utf8 (write events false) ++ Text.utf8 "\n") events :=
  .records events "\n" (by decide) (by decide) (Text.utf8_append _ _).symm

/-- The opening bracket, its line break and what goes between two records may stand in part. -/
theorem stopsAfter_front {before : List Event} {bytes : List UInt8}
    (h : bytes <+: Text.utf8 (front before)) :
    bytes <+: Text.utf8 (write before false) ∨ StopsAfter bytes before := by
  cases before with
  | nil => exact .inl h
  | cons e before =>
    rw [front, Text.utf8_append] at h
    rcases Text.prefix_append_cases h with hw | ⟨rest, rfl, hrest⟩
    · exact .inl hw
    · refine .inr ?_
      have hsep : rest <+: [0x2C, 0x0A] := hrest
      rcases prefix_pair hsep with rfl | rfl | rfl
      · rw [List.append_nil]
        exact .of_records _
      · exact .records _ "," (by decide) (by decide) (Text.utf8_append _ ",").symm
      · exact .records _ ",\n" (by decide) (by decide) (Text.utf8_append _ ",\n").symm

/-- Bytes from the beginning of a recording stop within a record or behind some of them. -/
theorem endsInside_or_stopsAfter {events : List Event} {bytes : List UInt8}
    (h : bytes <+: Text.utf8 (write events false)) :
    EndsInside events bytes ∨ ∃ before, before <+: events ∧ StopsAfter bytes before := by
  -- From the last record backwards: bytes that do not reach it are those of a shorter recording.
  induction events using List.reverseRecOn generalizing bytes with
  | nil =>
    refine .inr ⟨[], List.prefix_refl _, ?_⟩
    rcases prefix_pair h with rfl | rfl | rfl
    · exact .opening List.nil_prefix
    · exact .opening (List.prefix_refl _)
    · exact .of_records []
  | append_singleton events e ih =>
    have hfront {bytes : List UInt8} (hf : bytes <+: Text.utf8 (front events)) :
        EndsInside (events ++ [e]) bytes ∨
          ∃ before, before <+: events ++ [e] ∧ StopsAfter bytes before := by
      rcases stopsAfter_front hf with hw | hs
      · rcases ih hw with ⟨before, e', after, cut, rfl, hcut⟩ | ⟨before, hbefore, hs⟩
        · exact .inl ⟨before, e', after ++ [e], cut, by simp, hcut⟩
        · exact .inr ⟨before, hbefore.trans (List.prefix_append _ _), hs⟩
      · exact .inr ⟨events, List.prefix_append _ _, hs⟩
    rw [utf8_write_concat] at h
    rcases Text.prefix_append_cases h with hf | ⟨cut, rfl, hcut⟩
    · exact hfront hf
    · by_cases hne : cut = []
      · exact hfront (by simp [hne])
      · by_cases hn : cut = Text.utf8 e.render
        · refine .inr ⟨events ++ [e], List.prefix_refl _, ?_⟩
          rw [hn, ← utf8_write_concat]
          exact .of_records _
        · exact .inl ⟨events, e, [], cut, rfl, rfl, hcut, hne, hn⟩

theorem prefix_write {events : List Event} {complete : Bool} {bytes : List UInt8}
    (h : bytes <+: Text.utf8 (write events complete)) :
    EndsInside events bytes ∨ (∃ before, before <+: events ∧ StopsAfter bytes before) ∨
      complete = true ∧ bytes = Text.utf8 (write events true) := by
  cases complete with
  | false => exact (endsInside_or_stopsAfter h).imp_right .inl
  | true =>
    have hwrite : Text.utf8 (write events true) =
        Text.utf8 (write events false) ++ Text.utf8 "\n]" := by
      rw [write_true, Text.utf8_append]
    rw [hwrite] at h
    rcases Text.prefix_append_cases h with hw | ⟨rest, rfl, hrest⟩
    · exact (endsInside_or_stopsAfter hw).imp_right .inl
    · refine .inr ?_
      rcases prefix_pair hrest with rfl | rfl | rfl
      · rw [List.append_nil]
        exact .inl ⟨events, List.prefix_refl _, .of_records _⟩
      · exact .inl ⟨events, List.prefix_refl _, .of_newline _⟩
      · exact .inr ⟨rfl, hwrite.symm⟩

theorem readBytes_write (events : List Event) (complete : Bool) :
    readBytes (Text.utf8 (write events complete)) = .ok ⟨events, complete⟩ := by
  cases complete with
  | false => exact (StopsAfter.of_records events).readBytes
  | true => rw [readBytes_utf8, read_write_true]

theorem wholeRecords_write (events : List Event) :
    wholeRecords (Text.utf8 (write events true)) [] events = events := by
  apply wholeRecords_all
  rw [write_true, Text.utf8_append]
  exact List.prefix_append _ _

/-- The bytes of a recording, cut off anywhere: within a record they are refused, and anywhere else
they are the events whose records are there, complete only if nothing is missing. -/
theorem readBytes_of_prefix {events : List Event} {complete : Bool} {bytes : List UInt8}
    (h : bytes <+: Text.utf8 (write events complete)) :
    (EndsInside events bytes → ∃ error, readBytes bytes = .error error) ∧
    (¬EndsInside events bytes → readBytes bytes = .ok ⟨wholeRecords bytes [] events,
      complete && decide (bytes = Text.utf8 (write events complete))⟩) ∧
    readBytes (Text.utf8 (write events complete)) = .ok ⟨events, complete⟩ := by
  refine ⟨EndsInside.readBytes, fun houtside => ?_, readBytes_write events complete⟩
  rcases prefix_write h with hinside | ⟨before, ⟨after, rfl⟩, hs⟩ | ⟨rfl, rfl⟩
  · exact absurd hinside houtside
  · have hread := hs.readBytes
    have hflag : (complete && decide (bytes = Text.utf8 (write (before ++ after) complete))) =
        false := by
      rw [Bool.and_eq_false_iff, decide_eq_false_iff_not]
      cases complete with
      | false => exact .inl rfl
      | true =>
        -- The whole text is read as complete, so what is read as incomplete is not the whole text.
        refine .inr fun hfull => ?_
        rw [hfull, readBytes_write] at hread
        simp at hread
    rw [hread, hs.wholeRecords, hflag]
  · rw [readBytes_write, wholeRecords_write, Bool.true_and, decide_eq_true rfl]

def bracketMessage : Event := ⟨-1, .message ⟨.outgoing, "]\x7d,\x7b[ "⟩⟩

theorem readBytes_bracketMessage :
    Text.utf8 (front []) ++ (Text.utf8 bracketMessage.render).take 67 <+:
        Text.utf8 (write [bracketMessage, ⟨7, .stop⟩] true) ∧
      (∃ error, readBytes (Text.utf8 (front []) ++ (Text.utf8 bracketMessage.render).take 67) =
        .error error) ∧
      readBytes (Text.utf8 (write [bracketMessage, ⟨7, .stop⟩] true)) =
        .ok ⟨[bracketMessage, ⟨7, .stop⟩], true⟩ := by
  have hfront : Text.utf8 (front []) ++ (Text.utf8 bracketMessage.render).take 67 <+:
      Text.utf8 (write [bracketMessage, ⟨7, .stop⟩] true) := by decide +kernel
  have hread := readBytes_of_prefix hfront
  have hinside : EndsInside [bracketMessage, ⟨7, .stop⟩]
      (Text.utf8 (front []) ++ (Text.utf8 bracketMessage.render).take 67) :=
    ⟨[], bracketMessage, [⟨7, .stop⟩], (Text.utf8 bracketMessage.render).take 67, rfl, rfl,
      List.take_prefix _ _, by decide +kernel, by decide +kernel⟩
  exact ⟨hfront, hread.1 hinside, hread.2.2⟩

end Recording

end SessionPlayback
