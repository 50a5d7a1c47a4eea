import WallUnit.Firmware.Esp
import WallUnit.Foundations.Json

/-!
Owns the state frames of `ws_client.c`: `_escape_str` with its writes into a buffer on the
stack, and `ws_client_send_state`. Every frame fits its buffer, is a JSON object, and its
fields are fronts of what was given: `wsClientSendState_frame`.

Does not own the other events, nor what becomes of a frame once it is handed to the
websocket client.
-/

namespace WallUnit.Firmware.WsClient

open WallUnit.Foundations.Json

/-! ### The escaper -/

/-- `dst[index] = char`, which fails outside the buffer. -/
def store (dst : List Char) (index : Nat) (char : Char) : Option (List Char) :=
  if index < dst.length then some (dst.set index char) else none

/-- The loop of `_escape_str`: the rest of `src`, the buffer and `j`. -/
def escapeLoop (cap : Nat) : CString → List Char → Nat → Option (List Char × Nat)
  | [], dst, j => some (dst, j)
  | char :: rest, dst, j =>
      if char = '\x00' ∨ ¬ j + 2 < cap then some (dst, j)
      else if char = '"' ∨ char = '\\' then
        if cap ≤ j + 3 then some (dst, j)
        else
          (store dst j '\\').bind fun dst =>
            (store dst (j + 1) char).bind fun dst => escapeLoop cap rest dst (j + 2)
      else if 0x20 ≤ char.toNat then
        (store dst j char).bind fun dst => escapeLoop cap rest dst (j + 1)
      else escapeLoop cap rest dst j

/-- `_escape_str`; a null `src` is `none`. The buffer comes with what the stack held. -/
def escapeStr (cap : Nat) (src : Option CString) (dst : List Char) : Option (List Char) :=
  (escapeLoop cap (src.getD []) dst 0).bind fun (dst, j) => store dst j '\x00'

/-- The string in a buffer, as `%s` reads it. -/
def stringIn (buffer : List Char) : CString := buffer.takeWhile fun char => char ≠ '\x00'

/-! ### The frame -/

/-- `sizeof(s_esc)` and `sizeof(t_esc)`. -/
def escapeCap : Nat := 32

/-- `s_esc` or `t_esc`, with what the stack held. -/
abbrev EscapeBuffer := { cells : List Char // cells.length = escapeCap }

/-- `sizeof(buf)`. -/
def frameCap : Nat := 128

/-- What `snprintf` prints of the two escaped strings. -/
def stateText (turnId sEsc tEsc : CString) : CString :=
  if turnId ≠ [] then
    "\x7b\"type\":\"state\",\"state\":\"".toList ++ sEsc ++
      "\",\"turn_id\":\"".toList ++ tEsc ++ "\"\x7d".toList
  else "\x7b\"type\":\"state\",\"state\":\"".toList ++ sEsc ++ "\"\x7d".toList

/-- `ws_client_send_state`: its result, and the text given to `_send_text` if there is one.
`state` and `turn_id` are `none` when null. -/
def wsClientSendState (sEsc tEsc : EscapeBuffer) (state turnId : Option CString) :
    Option (EspErr × Option CString) :=
  (escapeStr escapeCap (some (state.getD [])) sEsc.1).bind fun sEsc =>
    (escapeStr escapeCap (some (turnId.getD [])) tEsc.1).bind fun tEsc =>
      let text := stateText (turnId.getD []) (stringIn sEsc) (stringIn tEsc)
      if text.length ≤ 0 ∨ frameCap ≤ text.length then some (.invalidSize, none)
      else some (.ok, some text)

/-! ### What the escaper writes -/

/-- The text without its control characters. -/
def kept (text : CString) : CString := text.filter fun char => 0x20 ≤ char.toNat

theorem store_next {dst : List Char} {index : Nat} (char : Char) (inside : index < dst.length) :
    ∃ next, store dst index char = some next ∧ next.length = dst.length ∧
      next.take (index + 1) = dst.take index ++ [char] := by
  refine ⟨dst.set index char, if_pos inside, List.length_set, ?_⟩
  rw [List.take_add_one, List.take_set_of_le (Nat.le_refl _), List.getElem?_set_self inside]
  rfl

theorem escaped_cons (char : Char) (text : List Char) :
    escaped (char :: text) =
      (if char = '"' ∨ char = '\\' then ['\\', char] else [char]) ++ escaped text :=
  List.flatMap_cons

theorem length_le_length_escaped (text : List Char) : text.length ≤ (escaped text).length := by
  induction text with
  | nil => exact Nat.le_refl _
  | cons char text inductionHypothesis =>
      rw [escaped_cons, List.length_append, List.length_cons]
      split_ifs
      · simp only [List.length_cons, List.length_nil]
        omega
      · simp only [List.length_cons, List.length_nil]
        omega

theorem kept_cons_of_printable {char : Char} (text : CString) (printable : 0x20 ≤ char.toNat) :
    kept (char :: text) = char :: kept text :=
  List.filter_cons_of_pos (decide_eq_true printable)

theorem kept_cons_of_control {char : Char} (text : CString) (control : ¬ 0x20 ≤ char.toNat) :
    kept (char :: text) = kept text :=
  List.filter_cons_of_neg (by rwa [decide_eq_true_eq])

theorem printable_of_special {char : Char} (special : char = '"' ∨ char = '\\') :
    0x20 ≤ char.toNat := by
  rcases special with rfl | rfl <;> decide

/-- Behind the first `j` cells the loop has written the escaped form of a front of what is
kept, all of it if that fits. -/
structure Wrote (cap : Nat) (src : CString) (dst : List Char) (j : Nat) (front : CString)
    (next : List Char) : Prop where
  size : next.length = cap
  written : next.take (j + (escaped front).length) = dst.take j ++ escaped front
  front_of : front <+: kept src
  room : j + (escaped front).length + 2 ≤ cap
  whole : j + (escaped (kept src)).length + 2 ≤ cap → front = kept src

theorem Wrote.nil {cap j : Nat} {src : CString} {dst : List Char} (size : dst.length = cap)
    (room : j + 2 ≤ cap) (full : j + (escaped (kept src)).length + 2 ≤ cap → kept src = []) :
    Wrote cap src dst j [] dst where
  size := size
  written := (List.append_nil _).symm
  front_of := List.nil_prefix
  room := room
  whole fits := (full fits).symm

/-- One more character in front. -/
theorem Wrote.cons {cap j : Nat} {char : Char} {rest : CString} {dst middle next : List Char}
    {front : CString} (printable : 0x20 ≤ char.toNat)
    (stored : middle.take (j + (escaped [char]).length) = dst.take j ++ escaped [char])
    (wrote : Wrote cap rest middle (j + (escaped [char]).length) front next) :
    Wrote cap (char :: rest) dst j (char :: front) next := by
  have split (text : List Char) : escaped (char :: text) = escaped [char] ++ escaped text :=
    escaped_append [char] text
  have room := wrote.room
  constructor
  · exact wrote.size
  · rw [split, List.length_append, ← Nat.add_assoc, wrote.written, stored, List.append_assoc]
  · rw [kept_cons_of_printable rest printable]
    exact (List.cons_prefix_cons).mpr ⟨rfl, wrote.front_of⟩
  · rw [split, List.length_append]
    omega
  · rw [kept_cons_of_printable rest printable, split, List.length_append]
    intro fits
    rw [wrote.whole (by omega)]

/-- The two stores of an escaped character. -/
theorem store_pair {dst : List Char} {j : Nat} {char : Char}
    (special : char = '"' ∨ char = '\\') (inside : j + 1 < dst.length) :
    ∃ first second, store dst j '\\' = some first ∧ store first (j + 1) char = some second ∧
      second.length = dst.length ∧ escaped [char] = ['\\', char] ∧
      second.take (j + (escaped [char]).length) = dst.take j ++ escaped [char] := by
  have pair : escaped [char] = ['\\', char] := by
    rw [escaped, List.flatMap_singleton, if_pos special]
  obtain ⟨first, firstStored, firstSize, firstTake⟩ := @store_next dst j '\\' (by omega)
  obtain ⟨second, secondStored, secondSize, secondTake⟩ :=
    @store_next first (j + 1) char (by omega)
  refine ⟨first, second, firstStored, secondStored, secondSize.trans firstSize, pair, ?_⟩
  calc
    second.take (j + (escaped [char]).length) = second.take (j + 1 + 1) := by rw [pair]; rfl
    _ = dst.take j ++ ['\\'] ++ [char] := by rw [secondTake, firstTake]
    _ = dst.take j ++ escaped [char] := by rw [pair, List.append_assoc]; rfl

theorem escapeLoop_wrote {cap : Nat} {src : CString} (clean : ∀ char ∈ src, char ≠ '\x00')
    {dst : List Char} {j : Nat} (size : dst.length = cap) (room : j + 2 ≤ cap) :
    ∃ front next, escapeLoop cap src dst j = some (next, j + (escaped front).length) ∧
      Wrote cap src dst j front next := by
  induction src generalizing dst j with
  | nil => exact ⟨[], dst, rfl, .nil size room fun _ => rfl⟩
  | cons char rest inductionHypothesis =>
      have later : ∀ other ∈ rest, other ≠ '\x00' := by
        intro other member
        exact clean other (List.mem_cons_of_mem _ member)
      have notNul := clean char List.mem_cons_self
      rw [escapeLoop]
      by_cases stop : j + 2 < cap
      swap
      · -- the buffer is full
        rw [if_pos (Or.inr stop)]
        refine ⟨[], dst, rfl, .nil size room fun fits => ?_⟩
        have length := length_le_length_escaped (kept (char :: rest))
        apply List.length_eq_zero_iff.mp
        omega
      rw [if_neg (not_or.mpr ⟨notNul, not_not.mpr stop⟩)]
      by_cases special : char = '"' ∨ char = '\\'
      · have printable := printable_of_special special
        rw [if_pos special]
        by_cases tight : cap ≤ j + 3
        · -- no room for the pair
          rw [if_pos tight]
          refine ⟨[], dst, rfl, .nil size room fun fits => ?_⟩
          rw [kept_cons_of_printable rest printable, escaped_cons, if_pos special,
            List.length_append] at fits
          simp only [List.length_cons, List.length_nil] at fits
          omega
        · obtain ⟨first, second, firstStored, secondStored, secondSize, pair, stored⟩ :=
            @store_pair dst j char special (by omega)
          have advance : j + (escaped [char]).length = j + 2 := by rw [pair]; rfl
          obtain ⟨front, next, ran, wrote⟩ :=
            @inductionHypothesis later second (j + 2) (by omega) (by omega)
          rw [if_neg tight, firstStored, Option.bind_some, secondStored, Option.bind_some, ran]
          refine ⟨char :: front, next, ?_, .cons printable stored (advance ▸ wrote)⟩
          rw [escaped_cons, if_pos special, List.length_append, Nat.add_assoc]
          rfl
      · rw [if_neg special]
        have single : escaped [char] = [char] := by
          rw [escaped, List.flatMap_singleton, if_neg special]
        by_cases printable : 0x20 ≤ char.toNat
        · obtain ⟨first, firstStored, firstSize, firstTake⟩ := @store_next dst j char (by omega)
          obtain ⟨front, next, ran, wrote⟩ :=
            @inductionHypothesis later first (j + 1) (by omega) (by omega)
          have advance : j + (escaped [char]).length = j + 1 := by rw [single]; rfl
          have stored :
              first.take (j + (escaped [char]).length) = dst.take j ++ escaped [char] := by
            rw [advance, single, firstTake]
          rw [if_pos printable, firstStored, Option.bind_some, ran]
          refine ⟨char :: front, next, ?_, .cons printable stored (advance ▸ wrote)⟩
          rw [escaped_cons, if_neg special, List.length_append, Nat.add_assoc]
          rfl
        · rw [if_neg printable]
          obtain ⟨front, next, ran, wrote⟩ := inductionHypothesis later size room
          refine ⟨front, next, ran, wrote.size, wrote.written, ?_, wrote.room, ?_⟩
          · rw [kept_cons_of_control rest printable]
            exact wrote.front_of
          · rw [kept_cons_of_control rest printable]
            exact wrote.whole

theorem mem_of_mem_escaped {text : List Char} {char : Char} (member : char ∈ escaped text) :
    char = '\\' ∨ char ∈ text := by
  obtain ⟨source, inside, spelled⟩ := List.mem_flatMap.mp member
  split_ifs at spelled with special
  · rcases List.mem_cons.mp spelled with slash | single
    · exact Or.inl slash
    · rw [List.mem_singleton.mp single]
      exact Or.inr inside
  · rw [List.mem_singleton.mp spelled]
    exact Or.inr inside

/-- A terminated front of a buffer is its string. -/
theorem stringIn_set {buffer : List Char} {index : Nat} (inside : index < buffer.length)
    (clean : ∀ char ∈ buffer.take index, char ≠ '\x00') :
    stringIn (buffer.set index '\x00') = buffer.take index := by
  rw [stringIn, List.set_eq_take_append_cons_drop, if_pos inside, List.takeWhile_append_of_pos]
  · simp
  · intro char member
    exact decide_eq_true (clean char member)

/-- What a field shows of a text: a front of it without its control characters, and all of
that if its escaped form has at most 30 characters. -/
structure FieldOf (text value : CString) : Prop where
  front_of : value <+: kept text
  whole : (escaped (kept text)).length ≤ escapeCap - 2 → value = kept text

/-- `_escape_str` writes inside its buffer, and leaves the escaped form of what the field
shows. -/
theorem escapeStr_reads {src : CString} (clean : ∀ char ∈ src, char ≠ '\x00')
    (buffer : EscapeBuffer) :
    ∃ value written, escapeStr escapeCap (some src) buffer.1 = some written ∧
      stringIn written = escaped value ∧ FieldOf src value ∧
      (escaped value).length ≤ escapeCap - 2 := by
  have cap : escapeCap = 32 := rfl
  obtain ⟨front, next, ran, wrote⟩ :=
    @escapeLoop_wrote escapeCap src clean buffer.1 0 buffer.2 (by decide)
  have room := wrote.room
  have size := wrote.size
  have written := wrote.written
  rw [Nat.zero_add] at ran written
  rw [List.take_zero, List.nil_append] at written
  have inside : (escaped front).length < next.length := by omega
  refine ⟨front, next.set (escaped front).length '\x00', ?_, ?_, ⟨wrote.front_of, ?_⟩, by omega⟩
  · rw [escapeStr, Option.getD_some, ran, Option.bind_some]
    exact if_pos inside
  · rw [stringIn_set inside, written]
    rw [written]
    intro char member
    rcases mem_of_mem_escaped member with slash | shown
    · rw [slash]
      decide
    · exact clean char (List.mem_of_mem_filter (wrote.front_of.subset shown))
  · intro fits
    exact wrote.whole (by omega)

/-! ### Every frame -/

/-- A NUL-terminated string of ASCII characters. -/
structure AsciiString where
  text : CString
  ascii : ∀ char ∈ text, 0 < char.toNat ∧ char.toNat < 128

/-- The characters of a string that may be null. -/
def textOf (string : Option AsciiString) : CString := (string.map AsciiString.text).getD []

theorem ascii_textOf {string : Option AsciiString} {char : Char} (member : char ∈ textOf string) :
    0 < char.toNat ∧ char.toNat < 128 := by
  cases string with
  | none => contradiction
  | some string => exact string.ascii char member

theorem clean_textOf {string : Option AsciiString} :
    ∀ char ∈ textOf string, char ≠ '\x00' := by
  intro char member nul
  have positive := (ascii_textOf member).1
  rw [nul] at positive
  contradiction

theorem FieldOf.printable {string : Option AsciiString} {value : CString}
    (field : FieldOf (textOf string) value) : Printable value := by
  intro char member
  obtain ⟨inside, printable⟩ := List.mem_filter.mp (field.front_of.subset member)
  have ascii := (ascii_textOf inside).2
  exact ⟨of_decide_eq_true printable, by omega⟩

/-- The members of a state frame. -/
def stateEntries (turnGiven : Bool) (state turnId : CString) : List (CString × CString) :=
  if turnGiven then
    [("type".toList, "state".toList), ("state".toList, state), ("turn_id".toList, turnId)]
  else [("type".toList, "state".toList), ("state".toList, state)]

theorem escaped_type : escaped ['t', 'y', 'p', 'e'] = ['t', 'y', 'p', 'e'] := rfl

theorem escaped_state : escaped ['s', 't', 'a', 't', 'e'] = ['s', 't', 'a', 't', 'e'] := rfl

/-- The text is the object of its members. -/
theorem stateText_escaped (turnId state turn : CString) :
    stateText turnId (escaped state) (escaped turn) =
      stringObject (stateEntries (turnId ≠ []) state turn) := by
  rw [stateText]
  split_ifs with given
  · have turnName : escaped ['t', 'u', 'r', 'n', '_', 'i', 'd'] =
        ['t', 'u', 'r', 'n', '_', 'i', 'd'] := rfl
    rw [decide_eq_true given]
    simp [stringObject, stateEntries, stringMember, List.intercalate, escaped_type,
      escaped_state, turnName]
  · rw [decide_eq_false given]
    simp [stringObject, stateEntries, stringMember, List.intercalate, escaped_type,
      escaped_state]

theorem length_stateText (turnId sEsc tEsc : CString) :
    0 < (stateText turnId sEsc tEsc).length ∧
      (stateText turnId sEsc tEsc).length ≤ 40 + sEsc.length + tEsc.length := by
  rw [stateText]
  split_ifs
  · simp
    omega
  · simp
    omega

theorem printable_stateEntries {turnGiven : Bool} {state turnId : CString}
    (statePrintable : Printable state) (turnPrintable : Printable turnId) :
    ∀ entry ∈ stateEntries turnGiven state turnId, Printable entry.1 ∧ Printable entry.2 := by
  have names : Printable "type".toList ∧ Printable "state".toList ∧
      Printable "turn_id".toList := by decide
  obtain ⟨typeName, stateName, turnName⟩ := names
  cases turnGiven with
  | false =>
      simp only [stateEntries, Bool.false_eq_true, if_false, List.forall_mem_cons,
        List.not_mem_nil, false_implies, implies_true, and_true]
      exact ⟨⟨typeName, stateName⟩, stateName, statePrintable⟩
  | true =>
      simp only [stateEntries, if_true, List.forall_mem_cons, List.not_mem_nil, false_implies,
        implies_true, and_true]
      exact ⟨⟨typeName, stateName⟩, ⟨stateName, statePrintable⟩, turnName, turnPrintable⟩

/-- **State frames.** Whatever the stack held, no write leaves its buffer, the frame fits, it is
a JSON object for every reader, and its fields show the strings. -/
theorem wsClientSendState_frame {Key Value : Type} (reading : Reading Key Value)
    (sEsc tEsc : EscapeBuffer) (state turnId : Option AsciiString) :
    ∃ frame stateField turnField,
      wsClientSendState sEsc tEsc (state.map AsciiString.text) (turnId.map AsciiString.text) =
        some (.ok, some frame) ∧
      frame.length < frameCap ∧
      FieldOf (textOf state) stateField ∧ FieldOf (textOf turnId) turnField ∧
      Spells reading frame (reading.object
        ((stateEntries (textOf turnId ≠ []) stateField turnField).map (stringEntry reading))) := by
  obtain ⟨stateField, stateBuffer, stateRan, stateString, ofState, stateRoom⟩ :=
    escapeStr_reads (@clean_textOf state) sEsc
  obtain ⟨turnField, turnBuffer, turnRan, turnString, ofTurn, turnRoom⟩ :=
    escapeStr_reads (@clean_textOf turnId) tEsc
  have spells := stringObject_spells reading
    (@printable_stateEntries (textOf turnId ≠ []) _ _ ofState.printable ofTurn.printable)
  rw [← stateText_escaped] at spells
  obtain ⟨positive, bound⟩ :=
    length_stateText (textOf turnId) (escaped stateField) (escaped turnField)
  have fits : (stateText (textOf turnId) (escaped stateField) (escaped turnField)).length <
      frameCap := by
    have escapeRoom : escapeCap - 2 = 30 := rfl
    have frameRoom : frameCap = 128 := rfl
    omega
  refine ⟨_, stateField, turnField, ?_, fits, ofState, ofTurn, spells⟩
  change (escapeStr escapeCap (some (textOf state)) sEsc.1).bind _ = _
  rw [stateRan, Option.bind_some]
  change (escapeStr escapeCap (some (textOf turnId)) tEsc.1).bind _ = _
  rw [turnRan, Option.bind_some, stateString, turnString]
  exact if_neg (not_or.mpr ⟨Nat.not_le.mpr positive, Nat.not_le.mpr fits⟩)

theorem ascii_of_all {text : CString}
    (all : (text.all fun char => decide (0 < char.toNat ∧ char.toNat < 128)) = true) :
    ∀ char ∈ text, 0 < char.toNat ∧ char.toNat < 128 :=
  fun char member => of_decide_eq_true (List.all_eq_true.mp all char member)

/-- A turn id whose quote is the thirtieth character, and has no room for its escape. -/
def quotedId : AsciiString where
  text := List.replicate 29 'a' ++ ['"', 'b']
  ascii := ascii_of_all rfl

def speaking : AsciiString where
  text := "speaking".toList
  ascii := ascii_of_all (by decide)

/-- A reader that keeps the code points of a string and the members of an object. -/
def flatReading : Reading (List Nat) (List (List Nat)) where
  null := []
  bool := fun _ => []
  number := fun _ => []
  string := fun codes => [codes]
  key := id
  array := List.flatten
  object := fun members => members.flatMap fun entry => entry.1 :: entry.2

/-- What the stack held. -/
def usedStack : EscapeBuffer := ⟨List.replicate 32 'z', by decide⟩

/-- The quote is left out, and nothing behind it is shown either. -/
def quotedFrame : CString := stateText quotedId.text speaking.text (List.replicate 29 'a')

theorem wsClientSendState_frame_quote :
    wsClientSendState usedStack usedStack (some speaking.text) (some quotedId.text) =
        some (.ok, some quotedFrame) ∧
      quotedFrame.length < frameCap ∧ ∃ value, Spells flatReading quotedFrame value := by
  obtain ⟨frame, _, _, sent, fits, -, -, spells⟩ :=
    wsClientSendState_frame flatReading usedStack usedStack (some speaking) (some quotedId)
  have computed : wsClientSendState usedStack usedStack (some speaking.text)
      (some quotedId.text) = some (.ok, some quotedFrame) := by decide +kernel
  obtain rfl : frame = quotedFrame := by
    have same := sent.symm.trans computed
    exact Option.some.inj (Prod.mk.inj (Option.some.inj same)).2
  exact ⟨computed, fits, _, spells⟩

end WallUnit.Firmware.WsClient
