import MeteredChunk.Proofs.Chunk.Lockstep
import MeteredChunk.Proofs.Value.General

/-!
A listing read back. A row tells its offset, its line and what it is about, and where it
ends; so listings of one text have the same rows, up to constants that are written alike.
Between them the rows have every byte of the code, and the line wherever it changes.
-/

namespace MeteredChunk

/-! ## Columns -/

/-- A text is cut in one way only at the first of its marks. -/
theorem cut_inj {α : Type} {mark : α} {front frontToo rest restToo : List α}
    (absent : mark ∉ front) (absentToo : mark ∉ frontToo)
    (same : front ++ mark :: rest = frontToo ++ mark :: restToo) :
    front = frontToo ∧ rest = restToo := by
  induction front generalizing frontToo with
  | nil =>
      cases frontToo with
      | nil => exact ⟨rfl, (List.cons.inj same).2⟩
      | cons first others =>
          exact absurd (List.mem_cons.mpr (.inl (List.cons.inj same).1)) absentToo
  | cons first others ih =>
      cases frontToo with
      | nil => exact absurd (List.mem_cons.mpr (.inl (List.cons.inj same).1.symm)) absent
      | cons firstToo othersToo =>
          obtain ⟨rfl, behind⟩ := List.cons.inj same
          obtain ⟨rfl, rests⟩ := ih (List.not_mem_of_not_mem_cons absent)
            (List.not_mem_of_not_mem_cons absentToo) behind
          exact ⟨rfl, rests⟩

theorem dropWhile_leftpad {text rest : List Char} (filled : text ≠ []) (blankless : ' ' ∉ text)
    (width : Nat) : (text.leftpad width ' ' ++ rest).dropWhile (· = ' ') = text ++ rest := by
  rw [List.leftpad, List.append_assoc,
    List.dropWhile_append_of_pos (by simp +contextual [List.mem_replicate])]
  cases text with
  | nil => exact absurd rfl filled
  | cons first others =>
      have letter : first ≠ ' ' := fun same => blankless (same ▸ List.mem_cons_self)
      rw [List.cons_append, List.dropWhile_cons_of_neg (by simpa using letter)]

theorem column_inj {text textToo rest restToo : List Char} {width : Nat}
    (filled : text ≠ []) (filledToo : textToo ≠ []) (blankless : ' ' ∉ text)
    (blanklessToo : ' ' ∉ textToo)
    (same : text.leftpad width ' ' ++ ' ' :: rest = textToo.leftpad width ' ' ++ ' ' :: restToo) :
    text = textToo ∧ rest = restToo := by
  have stripped := congrArg (List.dropWhile (· = ' ')) same
  rw [dropWhile_leftpad filled blankless, dropWhile_leftpad filledToo blanklessToo] at stripped
  exact cut_inj blankless blanklessToo stripped

theorem toDigits_absent (mark : Char) (other : mark.isDigit = false) (n : Nat) :
    mark ∉ Nat.toDigits 10 n :=
  (Numeral.allDigits_toDigits n).absent mark other

theorem Value.newline_generalChars (value : Value) : '\n' ∉ value.generalChars :=
  mark_generalChars '\n' (by decide) (by decide) value

namespace RowBody

/-- The same, with constants compared by their texts. -/
inductive Alike : RowBody → RowBody → Prop
  | load (index : UInt8) {constant constantToo : Option Value}
      (same : constant.map Value.general = constantToo.map Value.general) :
      Alike (.load index constant) (.load index constantToo)
  | cutShort : Alike .cutShort .cutShort
  | ret : Alike .ret .ret
  | unknown (byte : UInt8) : Alike (.unknown byte) (.unknown byte)

def bytes : RowBody → List UInt8
  | load index _ => [Opcode.constant.toByte, index]
  | cutShort => [Opcode.constant.toByte]
  | ret => [Opcode.ret.toByte]
  | unknown byte => [byte]

variable {body bodyToo : RowBody}

theorem Alike.bytes (alike : body.Alike bodyToo) : body.bytes = bodyToo.bytes := by
  cases alike <;> rfl

def shown : Option Value → List Char
  | some value => quotedText value
  | none => outOfRangeText

theorem load_chars (index : UInt8) (constant : Option Value) :
    (load index constant).chars = operandText .constant index ++ shown constant := by
  cases constant with
  | none => exact outOfRange_chars index
  | some value => exact quoted_chars index value

theorem newline_chars (body : RowBody) : '\n' ∉ body.chars := by
  cases body with
  | load index constant =>
      have digits := toDigits_absent '\n' (by decide) index.toNat
      have column : '\n' ∉ operandText .constant index := by
        have mnemonic : '\n' ∉ Opcode.constant.mnemonic.toList := by decide
        simp [operandText, mnemonic, List.leftpad, digits]
      have constants : '\n' ∉ shown constant := by
        cases constant with
        | none => decide
        | some value => simp [shown, quotedText, value.newline_generalChars]
      rw [load_chars, List.mem_append]
      exact not_or_intro column constants
  | cutShort => decide
  | ret => decide
  | unknown byte =>
      have digits := toDigits_absent '\n' (by decide) byte.toNat
      have letters : '\n' ∉ "Unknown opcode ".toList := by decide
      change '\n' ∉ "Unknown opcode ".toList ++ Nat.toDigits 10 byte.toNat
      rw [List.mem_append]
      exact not_or_intro letters digits

theorem operandText_operand {one other : UInt8}
    (same : operandText .constant one = operandText .constant other) : one = other := by
  unfold operandText at same
  rw [List.append_assoc, List.append_assoc] at same
  have columns := (List.cons.inj (List.append_cancel_left same)).2
  have shown (index : UInt8) := toDigits_absent ' ' (by decide) index.toNat
  have digits := column_inj Nat.toDigits_ne_nil Nat.toDigits_ne_nil (shown one) (shown other) columns
  exact UInt8.toNat_inj.mp (toDigits_inj _ _ digits.1)

theorem shown_inj {constant constantToo : Option Value} (same : shown constant = shown constantToo) :
    constant.map Value.general = constantToo.map Value.general := by
  cases constant <;> cases constantToo
  case none.none => rfl
  case none.some => cases same
  case some.none => cases same
  case some.some value valueToo =>
      have quoted := List.append_cancel_right (List.cons.inj same).2
      simp only [Option.map_some, Value.general, quoted]

def letter : RowBody → Char
  | load _ _ | cutShort => 'C'
  | ret => 'R'
  | unknown _ => 'n'

theorem chars_letter (body : RowBody) : body.chars[3]? = some body.letter := by
  cases body <;> rfl

theorem cutShort_chars : cutShort.chars = truncatedText := by decide

theorem alike_chars (same : body.chars = bodyToo.chars) : body.Alike bodyToo := by
  have letters : body.letter = bodyToo.letter := by
    rw [← Option.some.injEq, ← chars_letter, ← chars_letter, same]
  cases body <;> cases bodyToo <;> simp [letter] at letters
  case load.load index constant indexToo constantToo =>
    rw [load_chars, load_chars] at same
    have lengths : (operandText .constant index).length = (operandText .constant indexToo).length := by
      rw [operandText_length, operandText_length]
    obtain ⟨columns, constants⟩ := List.append_inj same lengths
    rw [operandText_operand columns]
    exact .load _ (shown_inj constants)
  case load.cutShort index constant =>
    rw [load_chars, cutShort_chars] at same
    exact absurd same (operandText_truncated _ _)
  case cutShort.load index constant =>
    rw [load_chars, cutShort_chars] at same
    exact absurd same.symm (operandText_truncated _ _)
  case cutShort.cutShort => exact .cutShort
  case ret.ret => exact .ret
  case unknown.unknown byte byteToo =>
    rw [unknownText_inj byte byteToo same]
    exact .unknown byteToo

end RowBody

namespace Row

structure Alike (row rowToo : Row) : Prop where
  offset : row.offset = rowToo.offset
  line : row.line = rowToo.line
  body : row.body.Alike rowToo.body

def mark (row : Row) : List Char :=
  match row.line with
  | some line => Nat.toDigits 10 line.toNat
  | none => ['|']

theorem lineColumn_mark (row : Row) : row.lineColumn = row.mark.leftpad 4 ' ' := by
  unfold lineColumn mark
  cases row.line <;> rfl

theorem mark_shown (row : Row) : row.mark ≠ [] ∧ ' ' ∉ row.mark := by
  unfold mark
  cases row.line with
  | none => exact ⟨by simp, by simp⟩
  | some line => exact ⟨Nat.toDigits_ne_nil, toDigits_absent ' ' (by decide) _⟩

theorem mark_inj {row rowToo : Row} (same : row.mark = rowToo.mark) : row.line = rowToo.line := by
  have bar (n : Nat) : ['|'] ≠ Nat.toDigits 10 n := fun digits =>
    toDigits_absent '|' (by decide) n (digits ▸ List.mem_singleton_self _)
  unfold mark at same
  cases line : row.line <;> cases lineToo : rowToo.line <;> simp only [line, lineToo] at same
  case none.none => rfl
  case none.some => exact absurd same (bar _)
  case some.none => exact absurd same.symm (bar _)
  case some.some => rw [UInt32.toNat_inj.mp (toDigits_inj _ _ same)]

/-- A row is read off the beginning of a text in one way only. -/
theorem chars_inj {row rowToo : Row} {rest restToo : List Char}
    (same : row.chars ++ rest = rowToo.chars ++ restToo) :
    row.Alike rowToo ∧ rest = restToo := by
  have blankless (n : Nat) : ' ' ∉ (Nat.toDigits 10 n).leftpad 4 '0' :=
    (Numeral.allDigits_leftpad 4 _ (Numeral.allDigits_toDigits n)).absent ' ' (by decide)
  simp only [chars, lineColumn_mark, List.append_assoc, List.cons_append, List.nil_append] at same
  obtain ⟨offsets, behind⟩ := cut_inj (blankless _) (blankless _) same
  obtain ⟨filled, plain⟩ := row.mark_shown
  obtain ⟨filledToo, plainToo⟩ := rowToo.mark_shown
  obtain ⟨marks, texts⟩ := column_inj filled filledToo plain plainToo behind
  obtain ⟨bodies, rests⟩ := cut_inj row.body.newline_chars rowToo.body.newline_chars texts
  have read := congrArg Numeral.nat? offsets
  rw [Numeral.nat?_leftpad, Numeral.nat?_leftpad, Option.some.injEq] at read
  exact ⟨⟨read, mark_inj marks, RowBody.alike_chars bodies⟩, rests⟩

theorem rows_alike (rows rowsToo : List Row)
    (same : rows.flatMap chars = rowsToo.flatMap chars) : List.Forall₂ Alike rows rowsToo := by
  have shown (row : Row) (others : List Row) : (row :: others).flatMap chars ≠ [] := by
    simp [chars]
  induction rows generalizing rowsToo with
  | nil =>
      cases rowsToo with
      | nil => exact .nil
      | cons row others => exact absurd same.symm (shown row others)
  | cons row others ih =>
      cases rowsToo with
      | nil => exact absurd same (shown row others)
      | cons rowToo othersToo =>
          rw [List.flatMap_cons, List.flatMap_cons] at same
          obtain ⟨alike, rests⟩ := chars_inj same
          exact .cons alike (ih othersToo rests)

def rebuild : UInt32 → List Row → List CodeUnit
  | _, [] => []
  | before, row :: rest =>
      row.body.bytes.map (⟨·, row.line.getD before⟩) ++ rebuild (row.line.getD before) rest

variable {rows rowsToo : List Row}

theorem bytes_alike (alike : List.Forall₂ Alike rows rowsToo) :
    rows.flatMap (·.body.bytes) = rowsToo.flatMap (·.body.bytes) := by
  induction alike with
  | nil => rfl
  | cons same others ih => rw [List.flatMap_cons, List.flatMap_cons, same.body.bytes, ih]

theorem beside_alike {row : Row} (alike : List.Forall₂ Alike rows rowsToo) (member : row ∈ rows) :
    ∃ rowToo ∈ rowsToo, row.Alike rowToo := by
  induction alike with
  | nil => cases member
  | cons same others ih =>
      rcases List.mem_cons.mp member with rfl | later
      · exact ⟨_, List.mem_cons_self, same⟩
      · obtain ⟨rowToo, among, alike⟩ := ih later
        exact ⟨rowToo, List.mem_cons_of_mem _ among, alike⟩

theorem rebuild_alike (before : UInt32) (alike : List.Forall₂ Alike rows rowsToo) :
    rebuild before rows = rebuild before rowsToo := by
  induction alike generalizing before with
  | nil => rfl
  | cons same others ih => rw [rebuild, rebuild, same.body.bytes, same.line, ih]

end Row

namespace Contents

variable {contents : Contents} {offset : Nat} {unit : CodeUnit}

/-- A row is about one byte, except for a load, which has its operand behind it. -/
theorem rowAt_cases (found : contents.unitAt? offset = some unit) :
    ((contents.rowAt offset unit).body.bytes = [unit.byte] ∧
        contents.next (contents.rowAt offset unit) = offset + 1) ∨
      ∃ second, contents.unitAt? (offset + 1) = some second ∧
        unit.byte = Opcode.constant.toByte ∧
        (contents.rowAt offset unit).body = .load second.byte (contents.constant? second.byte) ∧
        contents.next (contents.rowAt offset unit) = offset + 2 := by
  cases known : Opcode.ofByte? unit.byte with
  | none =>
      have body : (contents.rowAt offset unit).body = .unknown unit.byte := by
        simp only [rowAt, known]
      refine .inl ⟨by rw [body]; rfl, ?_⟩
      simp only [next, body]
      rfl
  | some opcode =>
      have byte := (Opcode.ofByte?_eq_some _ _).mp known
      cases opcode with
      | ret =>
          have body : (contents.rowAt offset unit).body = .ret := by simp only [rowAt, known]
          refine .inl ⟨by rw [body, ← byte]; rfl, ?_⟩
          simp only [next, body]
          rfl
      | constant =>
          cases behind : contents.unitAt? (offset + 1) with
          | none =>
              have body : (contents.rowAt offset unit).body = .cutShort := by
                simp only [rowAt, known, byteAt?, behind, Option.map_none]
              have inside : offset < contents.size := (Array.getElem?_eq_some_iff.mp found).1
              have last := unitAt?_none.mp behind
              refine .inl ⟨by rw [body, ← byte]; rfl, ?_⟩
              simp only [next, body]
              omega
          | some second =>
              have body : (contents.rowAt offset unit).body =
                  .load second.byte (contents.constant? second.byte) := by
                simp only [rowAt, known, byteAt?, behind, Option.map_some]
              refine .inr ⟨second, rfl, byte.symm, body, ?_⟩
              simp only [next, body]
              rfl

/-- The rows have all the bytes, whatever they are. -/
theorem bytes_rows (contents : Contents) (offset : Nat) :
    contents.bytes.drop offset = (contents.rowsFrom offset).flatMap (·.body.bytes) := by
  fun_induction contents.rowsFrom offset with
  | case1 offset ends => exact bytes_drop_end ends
  | case2 offset unit found ih =>
      rw [bytes_drop found, List.flatMap_cons, ← ih]
      rcases rowAt_cases found with ⟨bytes, onward⟩ | ⟨second, behind, opcode, body, onward⟩
      · rw [bytes, onward]
        rfl
      · rw [body, onward, bytes_drop behind, opcode]
        rfl

def Lined (contents : Contents) (rows : List Row) : Prop :=
  ∀ row ∈ rows, ∀ index constant, row.body = .load index constant →
    contents.lineAt? (row.offset + 1) = contents.lineAt? row.offset

theorem units_drop (found : contents.unitAt? offset = some unit) :
    contents.units.toList.drop offset = unit :: contents.units.toList.drop (offset + 1) := by
  have there : contents.units.toList[offset]? = some unit := by
    rw [Array.getElem?_toList]
    exact found
  obtain ⟨inside, same⟩ := List.getElem?_eq_some_iff.mp there
  rw [List.drop_eq_getElem_cons inside, same]

/-- With the line of the byte before at hand, the rows have all the lines. -/
theorem units_rows (before : UInt32) (lined : contents.Lined (contents.rowsFrom offset))
    (follows : 0 < offset → contents.lineAt? (offset - 1) = some before) :
    contents.units.toList.drop offset = Row.rebuild before (contents.rowsFrom offset) := by
  fun_induction contents.rowsFrom offset generalizing before with
  | case1 offset ends =>
      rw [Row.rebuild, List.drop_eq_nil_iff]
      simpa [size] using unitAt?_none.mp ends
  | case2 offset unit found ih =>
      have here : contents.lineAt? offset = some unit.line := by simp [lineAt?, found]
      have line : (contents.rowAt offset unit).line.getD before = unit.line := by
        unfold rowAt
        dsimp only
        split_ifs with repeated
        · exact Option.some.inj ((follows repeated.1).symm.trans repeated.2)
        · rfl
      have later : contents.Lined (contents.rowsFrom (contents.next (contents.rowAt offset unit))) :=
        fun row member => lined row (List.mem_cons_of_mem _ member)
      rw [Row.rebuild, line, units_drop found]
      rcases rowAt_cases found with ⟨bytes, onward⟩ | ⟨second, behind, opcode, body, onward⟩
      · rw [← ih unit.line later fun _ => by rw [onward]; exact here, bytes, onward]
        rfl
      · have same : second.line = unit.line := by
          have lines := lined _ List.mem_cons_self _ _ body
          change contents.lineAt? (offset + 1) = contents.lineAt? offset at lines
          rw [here, lineAt?, behind] at lines
          exact Option.some.inj lines
        have last : contents.lineAt? (offset + 2 - 1) = some unit.line := by
          rw [← same]
          simp [lineAt?, behind]
        rw [← ih unit.line later fun _ => by rw [onward]; exact last, body, onward,
          units_drop behind]
        obtain ⟨byte, line⟩ := unit
        obtain ⟨byteToo, lineToo⟩ := second
        cases same
        cases opcode
        rfl

theorem constant_rows {row : Row} {index : UInt8} {constant : Option Value}
    (member : row ∈ contents.rowsFrom offset) (load : row.body = .load index constant) :
    constant = contents.constant? index := by
  fun_induction contents.rowsFrom offset with
  | case1 offset ends => cases member
  | case2 offset unit found ih =>
      rcases List.mem_cons.mp member with rfl | later
      · rcases rowAt_cases found with ⟨bytes, -⟩ | ⟨second, -, -, body, -⟩
        · rw [load] at bytes
          simp [RowBody.bytes] at bytes
        · cases load.symm.trans body
          rfl
      · exact ih later

end Contents

namespace Chunk

/-- In the listing, the operand of each load has the line of its opcode. -/
def Lined (chunk : Chunk) : Prop :=
  ∀ rows, chunk.rows = .ok rows → ∀ row ∈ rows, ∀ index constant,
    row.body = .load index constant → chunk.lineAt? (row.offset + 1) = chunk.lineAt? row.offset

variable {chunk one other : Chunk}

theorem lined_contents (intact : chunk.Intact) (lined : chunk.Lined) :
    chunk.contents.Lined chunk.contents.rows := by
  intro row member index constant load
  have same := lined _ (rows_intact intact) row member index constant load
  rw [lineAt?_intact intact, lineAt?_intact intact] at same
  exact Except.ok.inj same

theorem rows_listing (intact : one.Intact) (intactToo : other.Intact) (title : String)
    (same : one.listing title = other.listing title) :
    List.Forall₂ Row.Alike one.contents.rows other.contents.rows := by
  rw [listing_intact intact, listing_intact intactToo, Except.ok.injEq] at same
  have texts := congrArg String.toList same
  simp only [Row.listing, String.toList_append, String.toList_ofList] at texts
  exact Row.rows_alike _ _ (List.append_cancel_left texts)

theorem constants_alike (alike : List.Forall₂ Row.Alike one.contents.rows other.contents.rows)
    {row : Row} {index : UInt8} {constant : Option Value} (member : row ∈ one.contents.rows)
    (load : row.body = .load index constant) :
    constant.map Value.general = (other.contents.constant? index).map Value.general := by
  obtain ⟨rowToo, memberToo, same⟩ := Row.beside_alike alike member
  have bodies := same.body
  rw [load] at bodies
  generalize loadToo : rowToo.body = bodyToo at bodies
  cases bodies with
  | load _ texts =>
      rw [texts, Contents.constant_rows memberToo loadToo]

/-- Two chunks with one listing have the same bytes, and the constants that they load are written
alike. If every operand is on the line of its opcode, they have the same lines too. -/
theorem listing_faithful (one other : Chunk) (intact : one.Intact) (intactToo : other.Intact)
    (title : String) (same : one.listing title = other.listing title) :
    (∃ bytes, one.bytes = .ok bytes ∧ other.bytes = .ok bytes) ∧
      (∃ rows rowsToo, one.rows = .ok rows ∧ other.rows = .ok rowsToo ∧
        List.Forall₂ Row.Alike rows rowsToo ∧
        ∀ row ∈ rows, ∀ index constant, row.body = .load index constant →
          constant = one.contents.constant? index ∧
            (one.contents.constant? index).map Value.general =
              (other.contents.constant? index).map Value.general) ∧
      (one.Lined → other.Lined → ∃ units, one.units = .ok units ∧ other.units = .ok units) := by
  have alike := rows_listing intact intactToo title same
  refine ⟨⟨_, bytes_intact intact, ?_⟩, ⟨_, _, rows_intact intact, rows_intact intactToo, alike,
    fun row member index constant load => ?_⟩, fun lined linedToo => ⟨_, units_intact intact, ?_⟩⟩
  · have bytes := one.contents.bytes_rows 0
    have bytesToo := other.contents.bytes_rows 0
    rw [List.drop_zero] at bytes bytesToo
    rw [bytes_intact intactToo, bytes, bytesToo]
    exact congrArg Except.ok (Row.bytes_alike alike).symm
  · have stands := Contents.constant_rows member load
    refine ⟨stands, ?_⟩
    rw [← stands]
    exact constants_alike alike member load
  · have first : ¬ 0 < 0 := Nat.lt_irrefl 0
    have units := Contents.units_rows 0 (lined_contents intact lined) fun below => absurd below first
    have unitsToo := Contents.units_rows 0 (lined_contents intactToo linedToo)
      fun below => absurd below first
    rw [List.drop_zero] at units unitsToo
    rw [units_intact intactToo, units, unitsToo]
    exact congrArg Except.ok (Row.rebuild_alike 0 alike).symm

def blurred (bits : UInt64) : Chunk where
  code := ⟨#[⟨0, 3⟩, ⟨0, 3⟩, ⟨0, 3⟩], 3⟩
  constants := ⟨⟨#[⟨bits⟩], 1⟩⟩

theorem blurred_rows (bits : UInt64) : (blurred bits).contents.rows =
    [⟨0, some 3, .load 0 (some ⟨bits⟩)⟩, ⟨2, none, .cutShort⟩] := by
  have found : (blurred bits).contents.unitAt? 0 = some ⟨0, 3⟩ := rfl
  have foundToo : (blurred bits).contents.unitAt? 2 = some ⟨0, 3⟩ := rfl
  have first : (blurred bits).contents.rowAt 0 ⟨0, 3⟩ = ⟨0, some 3, .load 0 (some ⟨bits⟩)⟩ := rfl
  have second : (blurred bits).contents.rowAt 2 ⟨0, 3⟩ = ⟨2, none, .cutShort⟩ := rfl
  have ends : (blurred bits).contents.unitAt? 3 = none := rfl
  rw [Contents.rows, Contents.rowsFrom_cons found, first]
  change _ :: (blurred bits).contents.rowsFrom 2 = _
  rw [Contents.rowsFrom_cons foundToo, second]
  change _ :: _ :: (blurred bits).contents.rowsFrom 3 = _
  rw [Contents.rowsFrom_end ends]

theorem blurred_lined (bits : UInt64) : (blurred bits).Intact ∧ (blurred bits).Lined := by
  have intact : (blurred bits).Intact := ⟨Nat.le_refl 3, Nat.le_refl 1⟩
  refine ⟨intact, fun rows listed row member index constant load => ?_⟩
  rw [rows_intact intact, blurred_rows, Except.ok.injEq] at listed
  subst listed
  rcases List.mem_cons.mp member with rfl | later
  · rfl
  · obtain rfl := List.mem_singleton.mp later
    cases load

theorem listing_faithful_blurred :
    (blurred 0x7FF8000000000000).constants.values.block ≠
        (blurred 0xFFF8000000000001).constants.values.block ∧
      ∃ units, (blurred 0x7FF8000000000000).units = .ok units ∧
        (blurred 0xFFF8000000000001).units = .ok units := by
  obtain ⟨intact, lined⟩ := blurred_lined 0x7FF8000000000000
  obtain ⟨intactToo, linedToo⟩ := blurred_lined 0xFFF8000000000001
  have same : (blurred 0x7FF8000000000000).listing "half" =
      (blurred 0xFFF8000000000001).listing "half" := by
    have number : (⟨0x7FF8000000000000⟩ : Value).generalChars =
        (⟨0xFFF8000000000001⟩ : Value).generalChars :=
      (if_pos (by decide)).trans (if_pos (by decide)).symm
    rw [listing_intact intact, listing_intact intactToo, blurred_rows, blurred_rows]
    simp only [Row.listing, List.flatMap_cons, Row.chars, Row.lineColumn, RowBody.load_chars,
      RowBody.shown, quotedText, number]
  exact ⟨by decide, (listing_faithful _ _ intact intactToo "half" same).2.2 lined linedToo⟩

end Chunk

end MeteredChunk
