import MeteredChunk.Proofs.Chunk.Readback
import MeteredChunk.Proofs.Chunk.Runs

/-!
The rows of a listing as tiles of the code, and its line column.
-/

namespace MeteredChunk

/-! ## Tiles

The rows of a listing as tiles. Each row is about one byte or two, the next one begins where
it ends, and together they fill the code. So the listing comes to an end after at most one
row for each byte, and no byte is in two rows.
-/

structure Tile where
  start : Nat
  stop : Nat
  line : List Char

namespace Tile

def text (tile : Tile) : List Char := tile.line ++ ['\n']

def Holds (tile : Tile) (offset : Nat) : Prop := tile.start ≤ offset ∧ offset < tile.stop

/-- Tiles of one byte or two, each of which begins where the one before it ends. -/
inductive Lie : Nat → List Tile → Nat → Prop
  | done (offset : Nat) : Lie offset [] offset
  | lay {tile : Tile} {rest : List Tile} {stop : Nat} (onward : tile.start < tile.stop)
      (short : tile.stop ≤ tile.start + 2) (behind : Lie tile.stop rest stop) :
      Lie tile.start (tile :: rest) stop

variable {tiles : List Tile} {start stop offset : Nat}

theorem Lie.behind_start (lie : Lie start tiles stop) {tile : Tile} (member : tile ∈ tiles) :
    start ≤ tile.start := by
  induction lie with
  | done offset => cases member
  | @lay first rest stop onward short behind ih =>
      rcases List.mem_cons.mp member with rfl | later
      · exact le_rfl
      · exact onward.le.trans (ih later)

theorem Lie.length_bounds (lie : Lie start tiles stop) :
    start + tiles.length ≤ stop ∧ stop ≤ start + 2 * tiles.length := by
  induction lie with
  | done offset => exact ⟨le_rfl, le_rfl⟩
  | @lay first rest stop onward short behind ih =>
      rw [List.length_cons]
      omega

/-- Every offset from the first tile to the last is in one of them, and in no other. -/
theorem Lie.covers (lie : Lie start tiles stop) (first : start ≤ offset) (last : offset < stop) :
    ∃! number : Nat, ∃ tile : Tile, tiles[number]? = some tile ∧ tile.Holds offset := by
  induction lie with
  | done place => exact absurd last (Nat.not_lt.mpr first)
  | @lay tile rest stop onward short behind ih =>
      by_cases inside : offset < tile.stop
      · refine ⟨0, ⟨tile, rfl, first, inside⟩, ?_⟩
        rintro number ⟨other, there, holds⟩
        cases number with
        | zero => rfl
        | succ number =>
            have later := behind.behind_start (List.mem_of_getElem? there)
            exact absurd holds.1 (Nat.not_le.mpr (inside.trans_le later))
      · obtain ⟨number, there, only⟩ := ih (Nat.not_lt.mp inside) last
        refine ⟨number + 1, there, ?_⟩
        rintro other ⟨tileToo, found, holds⟩
        cases other with
        | zero =>
            cases found
            exact absurd holds.2 inside
        | succ other => rw [only other ⟨tileToo, found, holds⟩]

end Tile

namespace Row

def printed (row : Row) : List Char :=
  (Nat.toDigits 10 row.offset).leftpad 4 '0' ++ ' ' :: row.lineColumn ++ ' ' :: row.body.chars

theorem newline_printed (row : Row) : '\n' ∉ row.printed := by
  have digits := toDigits_absent '\n' (by decide)
  have column : '\n' ∉ row.lineColumn := by
    unfold lineColumn
    cases row.line with
    | none => decide
    | some line => simp [List.leftpad, digits]
  simp [printed, digits, column, row.body.newline_chars]

end Row

namespace Word

def plus? (left right : Nat) : Option Nat := fit? (left + right)

def minus? (left right : Nat) : Option Nat := if right ≤ left then some (left - right) else none

end Word

namespace Contents

variable {contents : Contents} {offset : Nat} {unit : CodeUnit}

def wordLine? (contents : Contents) (offset : Nat) (unit : CodeUnit) : Option (Option UInt32) :=
  if 0 < offset then
    (Word.minus? offset 1).map fun before =>
      if contents.lineAt? before = some unit.line then none else some unit.line
  else some (some unit.line)

def wordBody? (contents : Contents) (offset : Nat) (unit : CodeUnit) : Option (RowBody × Nat) :=
  match Opcode.ofByte? unit.byte with
  | some .constant => do
      match contents.byteAt? (← Word.plus? offset 1) with
      | some index => return (.load index (contents.constant? index), ← Word.plus? offset 2)
      | none => return (.cutShort, contents.size)
  | some .ret => return (.ret, ← Word.plus? offset 1)
  | none => return (.unknown unit.byte, ← Word.plus? offset 1)

/-- The row at an offset with all indices worked out in 64 bits, absent if one overflows. -/
def wordRow? (contents : Contents) (offset : Nat) : Option (Option (Row × Nat)) :=
  match contents.unitAt? offset with
  | none => some none
  | some unit => do
      let line ← contents.wordLine? offset unit
      let (body, next) ← contents.wordBody? offset unit
      return some (⟨offset, line, body⟩, next)

theorem wordLine?_eq (contents : Contents) (offset : Nat) (unit : CodeUnit) :
    contents.wordLine? offset unit = some (contents.rowAt offset unit).line := by
  unfold wordLine? rowAt Word.minus?
  by_cases later : 0 < offset
  · have one : 1 ≤ offset := later
    simp only [later, one, if_true, Option.map_some, true_and]
  · simp only [later, if_false, false_and]

theorem wordBody?_eq (contents : Contents) (unit : CodeUnit) (room : offset + 2 < Word.limit) :
    contents.wordBody? offset unit =
      some ((contents.rowAt offset unit).body, contents.next (contents.rowAt offset unit)) := by
  have one : Word.plus? offset 1 = some (offset + 1) := if_pos (by omega)
  have two : Word.plus? offset 2 = some (offset + 2) := if_pos room
  unfold wordBody? next rowAt
  cases Opcode.ofByte? unit.byte with
  | none =>
      rw [one]
      rfl
  | some opcode =>
      cases opcode with
      | ret =>
          rw [one]
          rfl
      | constant =>
          simp only [one, two, bind, Option.bind]
          cases contents.byteAt? (offset + 1) <;> rfl

theorem wordRow?_eq (contents : Contents) (room : contents.size + 1 < Word.limit) (offset : Nat) :
    contents.wordRow? offset = some (contents.row? offset) := by
  unfold wordRow? row?
  cases found : contents.unitAt? offset with
  | none => rfl
  | some unit =>
      have inside : offset < contents.size := (Array.getElem?_eq_some_iff.mp found).1
      have fits : offset + 2 < Word.limit := by omega
      simp only [wordLine?_eq, wordBody?_eq contents unit fits]
      rfl

def tile (contents : Contents) (row : Row) : Tile := ⟨row.offset, contents.next row, row.printed⟩

theorem next_bounds (found : contents.unitAt? offset = some unit) :
    offset < contents.next (contents.rowAt offset unit) ∧
      contents.next (contents.rowAt offset unit) ≤ offset + 2 ∧
      contents.next (contents.rowAt offset unit) ≤ contents.size := by
  have inside : offset < contents.size := (Array.getElem?_eq_some_iff.mp found).1
  rcases rowAt_cases found with ⟨-, onward⟩ | ⟨second, behind, -, -, onward⟩
  · omega
  · have insideToo : offset + 1 < contents.size := (Array.getElem?_eq_some_iff.mp behind).1
    omega

theorem rowsFrom_lie (contents : Contents) (offset : Nat) (within : offset ≤ contents.size) :
    Tile.Lie offset ((contents.rowsFrom offset).map contents.tile) contents.size := by
  fun_induction contents.rowsFrom offset with
  | case1 offset ends =>
      have last : offset = contents.size := le_antisymm within (unitAt?_none.mp ends)
      rw [last]
      exact .done _
  | case2 offset unit found ih =>
      obtain ⟨onward, short, inside⟩ := next_bounds found
      have behind : Tile.Lie (contents.tile (contents.rowAt offset unit)).stop _ _ := ih inside
      rw [List.map_cons]
      exact .lay onward short behind

theorem rowsFrom_found {row : Row} (member : row ∈ contents.rowsFrom offset) :
    ∃ unit, contents.unitAt? row.offset = some unit ∧ contents.rowAt row.offset unit = row := by
  fun_induction contents.rowsFrom offset with
  | case1 offset ends => cases member
  | case2 offset unit found ih =>
      rcases List.mem_cons.mp member with rfl | later
      · exact ⟨unit, found, rfl⟩
      · exact ih later

theorem text_tiles (contents : Contents) (rows : List Row) :
    (rows.map contents.tile).flatMap Tile.text = rows.flatMap Row.chars := by
  rw [List.flatMap_map]
  rfl

end Contents

namespace Chunk

variable {chunk : Chunk} {offset : Nat}

structure Writes (chunk : Chunk) (tile : Tile) : Prop where
  single : '\n' ∉ tile.line
  adds : ∀ text, chunk.listAt tile.start text = .ok (tile.stop, text ++ String.ofList tile.text)

/-- Lists row after row while the offset is inside the code, absent if that takes more rounds. -/
def listFrom (chunk : Chunk) : Nat → Nat → String → Except Fault (Option String)
  | 0, _, _ => return none
  | rounds + 1, offset, text =>
      if offset < chunk.size then do
        let (next, longer) ← chunk.listAt offset text
        chunk.listFrom rounds next longer
      else return some text

theorem listFrom_tiles {tiles : List Tile} (lie : Tile.Lie offset tiles chunk.size)
    (writes : ∀ tile ∈ tiles, chunk.Writes tile) (rounds : Nat) (enough : tiles.length < rounds)
    (text : String) :
    chunk.listFrom rounds offset text =
      .ok (some (text ++ String.ofList (tiles.flatMap Tile.text))) := by
  generalize stops : chunk.size = stop at lie
  induction lie generalizing rounds text with
  | done offset =>
      cases rounds with
      | zero => cases enough
      | succ rounds =>
          have ended : ¬ offset < chunk.size := by omega
          rw [listFrom, if_neg ended]
          simp [pure, Except.pure]
  | @lay tile rest stop onward short behind ih =>
      cases rounds with
      | zero => cases enough
      | succ rounds =>
          obtain ⟨first, others⟩ := List.forall_mem_cons.mp writes
          have bounds := behind.length_bounds
          have inside : tile.start < chunk.size := by omega
          rw [listFrom, if_pos inside, first.adds]
          refine (ih others rounds (Nat.lt_of_succ_lt_succ enough) _ stops).trans ?_
          rw [List.flatMap_cons, String.ofList_append, String.append_assoc]

theorem listAt_beyond (intact : chunk.Intact) (beyond : chunk.size ≤ offset) (text : String) :
    chunk.listAt offset text = .ok (chunk.size, text) := by
  rw [← size_contents intact] at beyond
  rw [listAt_intact intact, Contents.row?, Contents.unitAt?_none.mpr beyond]
  rfl

theorem writes_row (intact : chunk.Intact) {unit : CodeUnit}
    (found : chunk.contents.unitAt? offset = some unit) :
    chunk.Writes (chunk.contents.tile (chunk.contents.rowAt offset unit)) := by
  refine ⟨Row.newline_printed _, fun text => ?_⟩
  change chunk.listAt offset text = _
  rw [listAt_intact intact, Contents.row?, found]
  rfl

def listAtWords (chunk : Chunk) (offset : Nat) (text : String) :
    Except Fault (Option (Nat × String)) :=
  return (← chunk.walk (·.wordRow? offset) (·.any (·.any (Row.loads ·.1)))).map fun
    | some (row, next) => (next, text ++ String.ofList row.chars)
    | none => (chunk.size, text)

/-- Storage takes less than half of what words can count, so an index behind the code is a word. -/
theorem size_word (intact : chunk.Intact) (small : chunk.code.block.bytes < 2 ^ 63) :
    chunk.contents.size + 1 < Word.limit := by
  have count := intact.code
  unfold Store.Intact Store.capacity at count
  rw [Block.bytes_sized sized_codeUnit] at small
  have room : chunk.code.block.size ≤ chunk.code.block.size * Element.bytes CodeUnit :=
    Nat.le_mul_of_pos_right _ sized_codeUnit.1
  rw [size_contents intact, size]
  unfold Word.limit
  omega

theorem listAtWords_eq (intact : chunk.Intact) (small : chunk.code.block.bytes < 2 ^ 63)
    (offset : Nat) (text : String) :
    chunk.listAtWords offset text = (chunk.listAt offset text).map some := by
  rw [listAtWords, walk_intact intact, chunk.contents.wordRow?_eq (size_word intact small),
    listAt_intact intact]
  cases chunk.contents.row? offset <;> rfl

/-- The disassembler writes a line at every offset inside the code, with indices in 64 bits or not.
The lines of a listing are one tile after another, cover every byte once, and are at most as many as
the bytes. -/
theorem listing_tiles (chunk : Chunk) (intact : chunk.Intact) :
    (∀ offset text, chunk.size ≤ offset → chunk.listAt offset text = .ok (chunk.size, text)) ∧
      (∀ offset, offset < chunk.size → ∃ tile : Tile, tile.start = offset ∧ chunk.Writes tile ∧
        offset < tile.stop ∧ tile.stop ≤ offset + 2 ∧ tile.stop ≤ chunk.size) ∧
      (chunk.code.block.bytes < 2 ^ 63 → ∀ offset text,
        chunk.listAtWords offset text = (chunk.listAt offset text).map some) ∧
      ∃ tiles : List Tile, Tile.Lie 0 tiles chunk.size ∧ (∀ tile ∈ tiles, chunk.Writes tile) ∧
        (∀ title, let heading := "== " ++ title ++ " ==\n"
          let listing := heading ++ String.ofList (tiles.flatMap Tile.text)
          chunk.listing title = .ok listing ∧
            ∀ rounds, tiles.length < rounds →
              chunk.listFrom rounds 0 heading = .ok (some listing)) ∧
        (∀ offset, offset < chunk.size →
          ∃! number : Nat, ∃ tile : Tile, tiles[number]? = some tile ∧ tile.Holds offset) ∧
        (chunk.size + 1) / 2 ≤ tiles.length ∧ tiles.length ≤ chunk.size := by
  have size := size_contents intact
  have lie := chunk.contents.rowsFrom_lie 0 (Nat.zero_le _)
  rw [size] at lie
  have bounds := lie.length_bounds
  have writes : ∀ tile ∈ (chunk.contents.rowsFrom 0).map chunk.contents.tile,
      chunk.Writes tile := by
    intro tile member
    obtain ⟨row, among, rfl⟩ := List.mem_map.mp member
    obtain ⟨unit, found, same⟩ := Contents.rowsFrom_found among
    exact same ▸ writes_row intact found
  refine ⟨fun offset text beyond => listAt_beyond intact beyond text, fun offset inside => ?_,
    listAtWords_eq intact, _, lie, writes,
    fun title => ⟨?_, fun rounds enough => listFrom_tiles lie writes rounds enough _⟩,
    fun offset inside => lie.covers (Nat.zero_le _) inside, by omega, by omega⟩
  · rw [← size] at inside ⊢
    have found := Array.getElem?_eq_getElem inside
    exact ⟨_, rfl, writes_row intact found, Contents.next_bounds found⟩
  · rw [listing_intact intact, Contents.text_tiles]
    rfl

theorem listing_tiles_broken :
    broken.Intact ∧ broken.code.block.bytes < 2 ^ 63 ∧
      ∃ tiles : List Tile, Tile.Lie 0 tiles 5 ∧ 3 ≤ tiles.length ∧ tiles.length ≤ 5 ∧
        ∃! number : Nat, ∃ tile : Tile, tiles[number]? = some tile ∧ tile.Holds 2 := by
  have intact : broken.Intact := ⟨by decide, by decide⟩
  obtain ⟨-, -, -, tiles, lie, -, -, covers, least, most⟩ := listing_tiles broken intact
  exact ⟨intact, by decide, tiles, lie, least, most, covers 2 (by decide)⟩

end Chunk

/-! ## The line column

The line column of a listing and the line runs are two views of one table. A line that is
written for a byte has a number in that column if a run begins with the byte, and a bar if not,
whether or not the listing comes to the byte.
-/

def secondWord (chars : List Char) : List Char :=
  ((chars.dropWhile (· ≠ ' ')).dropWhile (· = ' ')).takeWhile (· ≠ ' ')

theorem secondWord_column {first second rest : List Char} {width : Nat} (blankless : ' ' ∉ first)
    (filled : second ≠ []) (blanklessToo : ' ' ∉ second) :
    secondWord (first ++ ' ' :: second.leftpad width ' ' ++ ' ' :: rest) = second := by
  have letters (word : List Char) (blankless : ' ' ∉ word) :
      ∀ letter ∈ word, decide (letter ≠ ' ') = true := by
    intro letter member
    exact decide_eq_true fun blank => blankless (blank ▸ member)
  have front : (first ++ ' ' :: second.leftpad width ' ' ++ ' ' :: rest).dropWhile (· ≠ ' ') =
      ' ' :: (second.leftpad width ' ' ++ ' ' :: rest) := by
    rw [List.append_assoc, List.dropWhile_append_of_pos (letters first blankless)]
    rfl
  rw [secondWord, front, List.dropWhile_cons_of_pos (by simp),
    dropWhile_leftpad filled blanklessToo,
    List.takeWhile_append_of_pos (letters second blanklessToo)]
  simp

namespace Row

theorem secondWord_printed (row : Row) : secondWord row.printed = row.mark := by
  obtain ⟨filled, blankless⟩ := row.mark_shown
  have offset : ' ' ∉ (Nat.toDigits 10 row.offset).leftpad 4 '0' :=
    (Numeral.allDigits_leftpad 4 _ (Numeral.allDigits_toDigits _)).absent ' ' (by decide)
  rw [printed, lineColumn_mark]
  exact secondWord_column offset filled blankless

theorem mark_bar (row : Row) : row.mark = ['|'] ↔ row.line = none := by
  unfold mark
  cases row.line with
  | none => simp
  | some line =>
      have digits := toDigits_absent '|' (by decide) line.toNat
      simp only [reduceCtorEq, iff_false]
      intro bar
      exact digits (bar ▸ List.mem_singleton_self _)

theorem mark_number (row : Row) : (Numeral.nat? row.mark).isSome = true ↔ row.line ≠ none := by
  unfold mark
  cases row.line with
  | none => decide
  | some line =>
      have read := Numeral.nat?_leftpad 0 line.toNat
      simp only [List.leftpad, Nat.zero_sub, List.replicate_zero, List.nil_append] at read
      simp [read]

end Row

namespace Contents

variable {contents : Contents} {offset : Nat} {unit : CodeUnit} {runs : List LineRun}

theorem line_rowAt (contents : Contents) (offset : Nat) (unit : CodeUnit) :
    (contents.rowAt offset unit).line = none ∨
      (contents.rowAt offset unit).line = some unit.line := by
  unfold rowAt
  by_cases repeated : 0 < offset ∧ contents.lineAt? (offset - 1) = some unit.line
  · exact .inl (if_pos repeated)
  · exact .inr (if_neg repeated)

theorem tile_found {tile : Tile} (member : tile ∈ (contents.rowsFrom 0).map contents.tile) :
    ∃ unit, contents.unitAt? tile.start = some unit ∧
      tile = contents.tile (contents.rowAt tile.start unit) := by
  obtain ⟨row, among, rfl⟩ := List.mem_map.mp member
  obtain ⟨unit, found, same⟩ := rowsFrom_found among
  exact ⟨unit, found, congrArg contents.tile same.symm⟩

theorem line_none_iff (encodes : LineRun.Encodes contents.lines 0 runs)
    (found : contents.unitAt? offset = some unit) :
    (contents.rowAt offset unit).line = none ↔ ∀ run ∈ runs, run.start ≠ offset := by
  have inside : offset < contents.lines.length := by
    rw [length_lines]
    exact (Array.getElem?_eq_some_iff.mp found).1
  have here : contents.lines[offset]? = some unit.line := by
    rw [← lineAt?_eq, lineAt?, found]
    rfl
  have starts := encodes.starts_iff (Nat.zero_le _) inside
  rw [here, ← lineAt?_eq] at starts
  unfold rowAt
  by_cases repeated : 0 < offset ∧ contents.lineAt? (offset - 1) = some unit.line
  · have unstarted : ¬ ∃ run ∈ runs, run.start = offset := by
      rw [starts]
      rintro (first | differ)
      · omega
      · exact differ repeated.2
    simpa [repeated] using unstarted
  · have started : ∃ run ∈ runs, run.start = offset := by
      rw [starts]
      by_cases first : offset = 0
      · exact .inl first
      · exact .inr fun same => repeated ⟨Nat.pos_of_ne_zero first, same⟩
    simpa [repeated] using started

theorem line_run {run : LineRun} (encodes : LineRun.Encodes contents.lines 0 runs)
    (found : contents.unitAt? offset = some unit) (member : run ∈ runs)
    (starts : run.start = offset) : (contents.rowAt offset unit).line = some run.line := by
  have first := encodes.first_line member
  rw [starts, ← lineAt?_eq, lineAt?, found] at first
  rcases contents.line_rowAt offset unit with repeated | line
  · exact absurd starts ((line_none_iff encodes found).mp repeated run member)
  · rw [line]
    exact first

end Contents

namespace Chunk

variable {chunk : Chunk} {tile : Tile}

theorem writes_tile (intact : chunk.Intact) (writes : chunk.Writes tile)
    (inside : tile.start < chunk.size) :
    ∃ unit, chunk.contents.unitAt? tile.start = some unit ∧
      tile.line = (chunk.contents.rowAt tile.start unit).printed := by
  rw [← size_contents intact] at inside
  have found : chunk.contents.unitAt? tile.start = some _ := Array.getElem?_eq_getElem inside
  have other := (writes_row intact found).adds ""
  rw [Contents.tile] at other
  have same := (writes.adds "").symm.trans other
  simp only [Except.ok.injEq, Prod.mk.injEq, String.empty_append, String.ofList_inj,
    Tile.text, List.append_cancel_right_eq] at same
  exact ⟨_, found, same.2⟩

/-- The line column at an offset has a bar exactly if no line run starts there, and the line of the
run otherwise. The rows of a listing that have a number are those at run starts. -/
theorem listing_runs (chunk : Chunk) (intact : chunk.Intact) :
    ∃ runs, chunk.lineRuns = .ok runs ∧
      (∀ offset, offset < chunk.size → ∃ tile : Tile, tile.start = offset ∧ chunk.Writes tile) ∧
      (∀ tile, chunk.Writes tile → tile.start < chunk.size →
        (secondWord tile.line = ['|'] ↔ ∀ run ∈ runs, run.start ≠ tile.start) ∧
        ∀ run ∈ runs, run.start = tile.start →
          secondWord tile.line = Nat.toDigits 10 run.line.toNat) ∧
      ∃ tiles : List Tile, Tile.Lie 0 tiles chunk.size ∧ (∀ tile ∈ tiles, chunk.Writes tile) ∧
        (∀ title, chunk.listing title =
          .ok ("== " ++ title ++ " ==\n" ++ String.ofList (tiles.flatMap Tile.text))) ∧
        ∀ tile ∈ tiles, (Numeral.nat? (secondWord tile.line)).isSome = true ↔
          ∃ run ∈ runs, run.start = tile.start := by
  have encodes := chunk.contents_encodes
  have size := size_contents intact
  have lie := chunk.contents.rowsFrom_lie 0 (Nat.zero_le _)
  rw [size] at lie
  refine ⟨_, lineRuns_intact intact, ?_, ?_, _, lie, ?_, ?_, ?_⟩
  · intro offset inside
    rw [← size] at inside
    exact ⟨_, rfl, writes_row intact (Array.getElem?_eq_getElem inside)⟩
  · intro tile writes inside
    obtain ⟨unit, found, line⟩ := writes_tile intact writes inside
    rw [line, Row.secondWord_printed]
    constructor
    · rw [Row.mark_bar]
      exact Contents.line_none_iff encodes found
    · intro run member starts
      rw [Row.mark, Contents.line_run encodes found member starts]
  · intro tile member
    obtain ⟨unit, found, same⟩ := Contents.tile_found member
    rw [same]
    exact writes_row intact found
  · intro title
    rw [listing_intact intact, Contents.text_tiles]
    rfl
  · intro tile member
    obtain ⟨unit, found, same⟩ := Contents.tile_found member
    have line : tile.line = (chunk.contents.rowAt tile.start unit).printed :=
      congrArg Tile.line same
    rw [line, Row.secondWord_printed, Row.mark_number, ne_eq,
      Contents.line_none_iff encodes found]
    simp only [ne_eq, not_forall, not_not, exists_prop]

def hidden : Chunk := { code := ⟨#[⟨1, 7⟩, ⟨0, 7⟩, ⟨0, 8⟩], 3⟩ }

theorem listing_runs_hidden :
    hidden.Intact ∧ hidden.lineRuns = .ok [⟨0, 2, 7⟩, ⟨2, 3, 8⟩] ∧
      ∃ tile : Tile, tile.start = 2 ∧ hidden.Writes tile ∧ secondWord tile.line = ['8'] := by
  have intact : hidden.Intact := ⟨by decide, by decide⟩
  have runs : hidden.lineRuns = .ok [⟨0, 2, 7⟩, ⟨2, 3, 8⟩] := rfl
  obtain ⟨others, same, written, columns, -⟩ := listing_runs hidden intact
  cases runs.symm.trans same
  obtain ⟨tile, starts, writes⟩ := written 2 (by decide)
  have column := (columns tile writes (starts ▸ by decide)).2 ⟨2, 3, 8⟩ (by simp) starts.symm
  exact ⟨intact, runs, tile, starts, writes, column.trans (by decide)⟩

end Chunk

end MeteredChunk
