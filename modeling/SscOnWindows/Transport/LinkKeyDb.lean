import SscOnWindows.Lib.Scan
import SscOnWindows.Lib.BoundedMap
import Mathlib.Data.Fintype.Pi
import Mathlib.Tactic.FinCases

/-!
# The link key database

`btstack_link_key_db_file.c`: a cache of 32 slots with a counter, which is written to a
text file at every change and read from it when the database is opened.  The text form
of addresses is BTstack's; `AddrText.Lawful` says what is known of it.

The abstract database is a map with at most 32 entries in the order of insertion, and
`Timeline` keeps the history of the cache and the history of the file.
-/

namespace Ssc

open BoundedMap (Edit LatestPut InsertedAt ofHistory)

/-! ### Data -/

/-- `bd_addr_t`. -/
abbrev BdAddr := Fin 6 → UInt8

/-- `link_key_t`. -/
abbrev LinkKey := Fin 16 → UInt8

/-- `link_key_entry_t`. -/
structure LinkKeyEntry where
  addr : BdAddr
  key : LinkKey
  type : Int32
  used : Bool
  deriving DecidableEq

/-- `MAX_LINK_KEYS`. -/
def maxLinkKeys : Nat := 32

/-- `KEY_HEX_LEN`. -/
def keyHexLen : Nat := 32

/-- `sizeof(line)`. -/
def lineSize : Nat := 128

/-- The functions of BTstack that write and read an address. -/
structure AddrText where
  bdAddrToStrWithDelimiter : BdAddr → Char → List Char
  sscanfBdAddr : List Char → Option BdAddr

/-- An address is written as six bytes in hexadecimal with the delimiter between them,
and is read back from the front of a string. -/
structure AddrText.Lawful (bt : AddrText) : Prop where
  length_eq : ∀ addr, (bt.bdAddrToStrWithDelimiter addr '-').length = 17
  digit : ∀ addr, ∀ c ∈ bt.bdAddrToStrWithDelimiter addr '-', Scan.digitValue c < 16 ∨ c = '-'
  scan : ∀ addr s, bt.sscanfBdAddr (bt.bdAddrToStrWithDelimiter addr '-' ++ ' ' :: s) = some addr

/-- The static variables of the database, and the text in its file, if there is one. -/
structure LinkKeyDb where
  entries : List LinkKeyEntry
  numEntries : Nat
  file : Option (List Char)

/-- A slot before it is used. -/
def blankEntry : LinkKeyEntry where
  addr _ := 0
  key _ := 0
  type := 0
  used := false

/-- `memmove` inside an array. -/
def memmove {α : Type*} (l : List α) (dst src count : Nat) : List α :=
  l.take dst ++ (l.drop src).take count ++ l.drop (dst + count)

/-! ### The file -/

/-- `parse_hex_byte`. -/
def parseHexByte (s : List Char) : Option UInt8 :=
  match Scan.hexField 2 s with
  | none => none
  | some value => if value < 0 then none else some (UInt8.ofNat value.toNat)

/-- The sixteen bytes of a key. -/
def parseKey (s : List Char) : Option LinkKey :=
  if h : ∀ i : Fin 16, (parseHexByte (s.drop (i * 2))).isSome then
    some (fun i => (parseHexByte (s.drop (i * 2))).get (h i))
  else none

/-- The entry `load_from_file` reads from a line, unless it skips the line. -/
def parseLine (bt : AddrText) (line : List Char) : Option LinkKeyEntry :=
  let line := Scan.cString line
  if line.head? = some '#' ∨ line.head? = some '\n' ∨ line.head? = some '\r' then none
  else
    match bt.sscanfBdAddr line with
    | none => none
    | some addr =>
        if line.length < 18 + keyHexLen + 2 then none
        else
          match parseKey (line.drop 18) with
          | none => none
          | some key =>
              match Scan.decimalField ((line.drop 18).drop (keyHexLen + 1)) with
              | none => none
              | some type => some ⟨addr, key, Int32.ofInt type, true⟩

/-- The loop of `load_from_file`. -/
def loadLines (bt : AddrText) (entries : List LinkKeyEntry) (numEntries : Nat) :
    List (List Char) → List LinkKeyEntry × Nat
  | [] => (entries, numEntries)
  | line :: rest =>
      if numEntries < maxLinkKeys then
        match parseLine bt line with
        | none => loadLines bt entries numEntries rest
        | some entry => loadLines bt (entries.set numEntries entry) (numEntries + 1) rest
      else (entries, numEntries)

/-- The first line of the file, as the bytes of its encoding. -/
def headerLine : List Char :=
  "# BTstack link key database \u00e2\u0080\u0094 do not edit while app is running".toList

/-- The line `save_to_file` writes for an entry. -/
def entryLine (bt : AddrText) (entry : LinkKeyEntry) : List Char :=
  bt.bdAddrToStrWithDelimiter entry.addr '-'
    ++ ' ' :: ((List.ofFn entry.key).flatMap Scan.hexByte
      ++ ' ' :: Scan.decimal entry.type.toInt)

namespace LinkKeyDb

/-- The program starts. -/
def start (file : Option (List Char)) : LinkKeyDb where
  entries := List.replicate maxLinkKeys blankEntry
  numEntries := 0
  file := file

/-- `load_from_file`. -/
def loadFromFile (bt : AddrText) (db : LinkKeyDb) : LinkKeyDb :=
  match db.file with
  | none => { db with numEntries := 0 }
  | some text =>
      let loaded := loadLines bt db.entries 0 (Scan.lines lineSize text)
      { db with entries := loaded.1, numEntries := loaded.2 }

/-- `save_to_file`. -/
def saveToFile (bt : AddrText) (db : LinkKeyDb) : LinkKeyDb :=
  let lines := ((db.entries.take db.numEntries).filter (·.used)).flatMap
    (fun entry => entryLine bt entry ++ ['\n'])
  { db with file := some (headerLine ++ '\n' :: lines) }

/-! ### The operations -/

/-- `find_entry`. -/
def findEntry (db : LinkKeyDb) (addr : BdAddr) : Option Nat :=
  (db.entries.take db.numEntries).findIdx? (fun entry => entry.used && entry.addr = addr)

/-- `db_open`. -/
def dbOpen (bt : AddrText) (db : LinkKeyDb) : LinkKeyDb :=
  db.loadFromFile bt

/-- `db_close`. -/
def dbClose (db : LinkKeyDb) : LinkKeyDb :=
  db

/-- `db_get_link_key`. -/
def dbGetLinkKey (db : LinkKeyDb) (addr : BdAddr) : Option (LinkKey × Int32) :=
  match db.findEntry addr with
  | none => none
  | some idx =>
      let entry := db.entries.getD idx blankEntry
      some (entry.key, entry.type)

/-- The slot `db_put_link_key` writes for an address it has not found. -/
def newSlot (db : LinkKeyDb) : LinkKeyDb × Nat :=
  if db.numEntries ≥ maxLinkKeys then
    ({ db with
        entries := memmove db.entries 0 1 (maxLinkKeys - 1)
        numEntries := maxLinkKeys }, maxLinkKeys - 1)
  else ({ db with numEntries := db.numEntries + 1 }, db.numEntries)

/-- `db_put_link_key`. -/
def dbPutLinkKey (bt : AddrText) (db : LinkKeyDb) (addr : BdAddr) (key : LinkKey)
    (type : Int32) : LinkKeyDb :=
  let (db, idx) :=
    match db.findEntry addr with
    | some idx => (db, idx)
    | none => db.newSlot
  { db with entries := db.entries.set idx ⟨addr, key, type, true⟩ }.saveToFile bt

/-- `db_delete_link_key`. -/
def dbDeleteLinkKey (bt : AddrText) (db : LinkKeyDb) (addr : BdAddr) : LinkKeyDb :=
  match db.findEntry addr with
  | none => db
  | some idx =>
      let entries :=
        if idx < db.numEntries - 1 then
          memmove db.entries idx (idx + 1) (db.numEntries - 1 - idx)
        else db.entries
      { db with entries := entries, numEntries := db.numEntries - 1 }.saveToFile bt

/-- The entries in use. -/
def stored (db : LinkKeyDb) : List LinkKeyEntry :=
  db.entries.take db.numEntries

end LinkKeyDb

/-- A call of the interface, or a new start of the program. -/
inductive LinkKeyOp where
  | restart
  | dbOpen
  | dbClose
  | getLinkKey (addr : BdAddr)
  | putLinkKey (addr : BdAddr) (key : LinkKey) (type : Int32)
  | deleteLinkKey (addr : BdAddr)

namespace LinkKeyDb

/-- The database after an operation. -/
def step (bt : AddrText) (db : LinkKeyDb) : LinkKeyOp → LinkKeyDb
  | .restart => start db.file
  | .dbOpen => db.dbOpen bt
  | .dbClose => db.dbClose
  | .getLinkKey _ => db
  | .putLinkKey addr key type => db.dbPutLinkKey bt addr key type
  | .deleteLinkKey addr => db.dbDeleteLinkKey bt addr

/-- The database after a list of operations, with no file at the beginning. -/
def run (bt : AddrText) (ops : List LinkKeyOp) : LinkKeyDb :=
  ops.foldl (step bt) (start none)

end LinkKeyDb

/-! ### The file is read back -/

section File

variable {bt : AddrText}

/-- The bytes of a key are at twice their numbers in its text. -/
theorem drop_flatMap_hexByte :
    ∀ {l : List UInt8} {i : Nat} {b : UInt8} (s : List Char), l[i]? = some b →
      ∃ s', (l.flatMap Scan.hexByte ++ s).drop (i * 2) = Scan.hexByte b ++ s'
  | [], _, _, _, h => by
      simp at h
  | c :: l, 0, b, s, h => by
      obtain rfl : c = b := by simpa using h
      use l.flatMap Scan.hexByte ++ s
      rw [List.flatMap_cons, List.append_assoc]
      rfl
  | c :: l, i + 1, b, s, h => by
      obtain ⟨s', hs'⟩ := drop_flatMap_hexByte (l := l) (i := i) s (by simpa using h)
      use s'
      rw [← hs', List.flatMap_cons, Nat.succ_mul, Scan.hexByte]
      rfl

theorem length_flatMap_hexByte (l : List UInt8) :
  (l.flatMap Scan.hexByte).length = 2 * l.length
  := by
  induction l with
  | nil => rfl
  | cons b l ih =>
      rw [List.flatMap_cons, List.length_append, ih, List.length_cons, Scan.hexByte]
      simp only [List.length_cons, List.length_nil]
      omega

theorem parseHexByte_hexByte (b : UInt8) (s : List Char) :
  parseHexByte (Scan.hexByte b ++ s) = some b
  := by
  rw [parseHexByte, Scan.hexField_hexByte]
  simp

/-- A key is read back from its text. -/
theorem parseKey_hex (key : LinkKey) (s : List Char) :
  parseKey ((List.ofFn key).flatMap Scan.hexByte ++ s) = some key
  := by
  have hbyte : ∀ i : Fin 16,
      parseHexByte (((List.ofFn key).flatMap Scan.hexByte ++ s).drop (i * 2)) = some (key i) := by
    intro i
    have hget : (List.ofFn key)[(i : Nat)]? = some (key i) := by
      rw [List.getElem?_ofFn, dif_pos i.isLt]
    obtain ⟨s', hs'⟩ := drop_flatMap_hexByte s hget
    rw [hs', parseHexByte_hexByte]
  rw [parseKey, dif_pos]
  · simp only [hbyte, Option.get_some]
  · intro i
    rw [hbyte]
    rfl

/-- The lines of the file have no end of line and no zero in them. -/
theorem entryLine_plain (hbt : bt.Lawful) (entry : LinkKeyEntry) :
  ∀ c ∈ entryLine bt entry, c ≠ '\n' ∧ c ≠ '\x00'
  := by
  intro c hc
  simp only [entryLine, List.mem_append, List.mem_cons, List.mem_flatMap] at hc
  obtain haddr | rfl | ⟨b, -, hb⟩ | rfl | htype := hc
  · obtain hdigit | rfl := hbt.digit entry.addr c haddr
    · have hplain := (Scan.digit_spec hdigit).2
      simp only [List.mem_cons, not_or] at hplain
      tauto
    · decide
  · decide
  · apply Scan.plain_of_mem_hexByte hb
  · decide
  · apply Scan.plain_of_mem_decimal htype

theorem length_decimal_int32 (type : Int32) :
  0 < (Scan.decimal type.toInt).length ∧ (Scan.decimal type.toInt).length ≤ 11
  := by
  have hlo := type.le_toInt
  have hhi := type.toInt_lt
  have hpos : 0 < (Nat.toDigits 10 type.toInt.natAbs).length := Nat.length_toDigits_pos
  have hle : (Nat.toDigits 10 type.toInt.natAbs).length ≤ 10 := by
    apply (Nat.length_toDigits_le_iff (by omega) (by omega)).mpr
    omega
  rw [Scan.decimal]
  split
  · rw [List.length_cons]
    omega
  · omega

theorem length_entryLine (hbt : bt.Lawful) (entry : LinkKeyEntry) :
  52 ≤ (entryLine bt entry).length ∧ (entryLine bt entry).length ≤ 62
  := by
  have haddr := hbt.length_eq entry.addr
  have htype := length_decimal_int32 entry.type
  simp only [entryLine, List.length_append, List.length_cons, length_flatMap_hexByte,
    List.length_ofFn]
  omega

/-- The first character of a line is part of the address. -/
theorem head?_addr (hbt : bt.Lawful) (addr : BdAddr) (s : List Char) :
  (bt.bdAddrToStrWithDelimiter addr '-' ++ s).head? ∉ [some '#', some '\n', some '\r']
  := by
  have hlength := hbt.length_eq addr
  have hdigit := hbt.digit addr
  cases haddr : bt.bdAddrToStrWithDelimiter addr '-' with
  | nil =>
      rw [haddr] at hlength
      contradiction
  | cons c rest =>
      have hc := hdigit c (by simp [haddr])
      intro hmem
      simp only [List.cons_append, List.head?_cons, List.mem_cons, Option.some.injEq,
        List.not_mem_nil, or_false] at hmem
      obtain rfl | rfl | rfl := hmem <;> revert hc <;> decide

/-- A line with an address, a key and what is behind them. -/
def lineOf (bt : AddrText) (addr : BdAddr) (key : LinkKey) (rest : List Char) : List Char :=
  bt.bdAddrToStrWithDelimiter addr '-'
    ++ ' ' :: ((List.ofFn key).flatMap Scan.hexByte ++ ' ' :: rest)

theorem entryLine_append (entry : LinkKeyEntry) (s : List Char) :
  entryLine bt entry ++ s
    = lineOf bt entry.addr entry.key (Scan.decimal entry.type.toInt ++ s)
  := by
  simp [entryLine, lineOf]

theorem length_lineOf (hbt : bt.Lawful) (addr : BdAddr) (key : LinkKey) (rest : List Char) :
  (lineOf bt addr key rest).length = 51 + rest.length
  := by
  simp only [lineOf, List.length_append, List.length_cons, hbt.length_eq, length_flatMap_hexByte,
    List.length_ofFn]
  omega

theorem take_lineOf (hbt : bt.Lawful) (addr : BdAddr) (key : LinkKey) (rest : List Char)
    (n : Nat) :
  (lineOf bt addr key rest).take (51 + n) = lineOf bt addr key (rest.take n)
  := by
  have hfront : (lineOf bt addr key []).length = 51 := length_lineOf hbt addr key []
  have happend : ∀ s, lineOf bt addr key s = lineOf bt addr key [] ++ s := by
    intro s
    simp [lineOf]
  rw [happend rest, happend (rest.take n), List.take_append, hfront, Nat.add_sub_cancel_left,
    List.take_of_length_le (by omega)]

/-- What is behind the address, and behind the key. -/
theorem drop_lineOf (hbt : bt.Lawful) (addr : BdAddr) (key : LinkKey) (rest : List Char) :
  (lineOf bt addr key rest).drop 18 = (List.ofFn key).flatMap Scan.hexByte ++ ' ' :: rest
    ∧ ((List.ofFn key).flatMap Scan.hexByte ++ ' ' :: rest).drop (keyHexLen + 1) = rest
  := by
  have haddr := hbt.length_eq addr
  have hhex : ((List.ofFn key).flatMap Scan.hexByte).length = keyHexLen := by
    rw [length_flatMap_hexByte, List.length_ofFn]
    rfl
  constructor
  · rw [lineOf, List.drop_append, List.drop_eq_nil_of_le, haddr]
    · rfl
    · rw [haddr]
      omega
  · rw [List.drop_append, List.drop_eq_nil_of_le, hhex]
    · simp
    · omega

theorem lineOf_plain (hbt : bt.Lawful) (addr : BdAddr) (key : LinkKey) {rest : List Char}
    (hrest : ∀ c ∈ rest, c ≠ '\x00') :
  ∀ c ∈ lineOf bt addr key rest, c ≠ '\x00'
  := by
  intro c hc
  simp only [lineOf, List.mem_append, List.mem_cons, List.mem_flatMap] at hc
  obtain hdigit | rfl | ⟨b, -, hb⟩ | rfl | hbehind := hc
  · obtain hlt | rfl := hbt.digit addr c hdigit
    · have hspec := (Scan.digit_spec hlt).2
      simp only [List.mem_cons, not_or] at hspec
      tauto
    · decide
  · decide
  · apply (Scan.plain_of_mem_hexByte hb).2
  · decide
  · apply hrest c hbehind

/-- A line with an address and a key is an entry if it has a type behind them. -/
theorem parseLine_lineOf (hbt : bt.Lawful) (addr : BdAddr) (key : LinkKey) {rest : List Char}
    (hne : rest ≠ []) (hrest : ∀ c ∈ rest, c ≠ '\x00') :
  parseLine bt (lineOf bt addr key rest)
    = (Scan.decimalField rest).map (fun type => ⟨addr, key, Int32.ofInt type, true⟩)
  := by
  have hstring := Scan.cString_of_plain (lineOf_plain hbt addr key hrest)
  have hscan : bt.sscanfBdAddr (lineOf bt addr key rest) = some addr := hbt.scan addr _
  have hhead : (lineOf bt addr key rest).head? ∉ [some '#', some '\n', some '\r'] :=
    head?_addr hbt addr _
  simp only [List.mem_cons, List.not_mem_nil, or_false] at hhead
  have hlong : ¬ (lineOf bt addr key rest).length < 18 + keyHexLen + 2 := by
    have hpos := List.length_pos_iff.mpr hne
    rw [length_lineOf hbt, keyHexLen]
    omega
  obtain ⟨hkey, htype⟩ := drop_lineOf hbt addr key rest
  rw [parseLine, hstring, if_neg hhead, hscan]
  dsimp only
  rw [if_neg hlong, hkey, parseKey_hex]
  dsimp only
  rw [htype]
  cases Scan.decimalField rest with
  | none => rfl
  | some type => rfl

/-- An entry in use is read back from its line, with the end of the line or without. -/
theorem parseLine_entryLine (hbt : bt.Lawful) (entry : LinkKeyEntry) (hused : entry.used = true)
    {ending : List Char} (hending : ending = [] ∨ ending = ['\n']) :
  parseLine bt (entryLine bt entry ++ ending) = some entry
  := by
  have hpos := (length_decimal_int32 entry.type).1
  have htype : Scan.decimalField (Scan.decimal entry.type.toInt ++ ending)
      = some entry.type.toInt := by
    apply Scan.decimalField_decimal
    rcases hending with rfl | rfl
    · simp
    · intro c hc
      obtain rfl : '\n' = c := by simpa using hc
      decide
  rw [entryLine_append, parseLine_lineOf hbt, htype, Option.map_some, Int32.ofInt_toInt, ← hused]
  · intro hnil
    rw [List.append_eq_nil_iff] at hnil
    rw [hnil.1] at hpos
    contradiction
  · intro c hc
    rcases List.mem_append.mp hc with hc | hc
    · apply (Scan.plain_of_mem_decimal hc).2
    · rcases hending with rfl | rfl
      · cases hc
      · obtain rfl := List.mem_singleton.mp hc
        decide

theorem take_set_succ {α : Type*} {l : List α} {i : Nat} (h : i < l.length) (x : α) :
  (l.set i x).take (i + 1) = l.take i ++ [x]
  := by
  rw [List.take_add_one, List.take_set_of_le le_rfl, List.getElem?_set_self h]
  rfl

/-- The loop loads the entries of its lines one after the other. -/
theorem loadLines_spec {lines : List (List Char)} {entries : List LinkKeyEntry} {num : Nat}
    (hentries : entries.length = maxLinkKeys)
    (hnum : num + (lines.filterMap (parseLine bt)).length ≤ maxLinkKeys) :
  (loadLines bt entries num lines).1.length = maxLinkKeys
    ∧ (loadLines bt entries num lines).2 = num + (lines.filterMap (parseLine bt)).length
    ∧ (loadLines bt entries num lines).1.take (num + (lines.filterMap (parseLine bt)).length)
      = entries.take num ++ lines.filterMap (parseLine bt)
  := by
  induction lines generalizing entries num with
  | nil => simp [loadLines, hentries]
  | cons line lines ih =>
      cases hline : parseLine bt line with
      | none =>
          rw [List.filterMap_cons_none hline] at hnum ⊢
          rw [loadLines]
          split
          · rw [hline]
            apply ih hentries hnum
          · have hnil : lines.filterMap (parseLine bt) = [] := by
              rw [← List.length_eq_zero_iff]
              omega
            simp [hnil, hentries]
      | some entry =>
          rw [List.filterMap_cons_some hline] at hnum ⊢
          rw [List.length_cons] at hnum
          have hset : (entries.set num entry).length = maxLinkKeys := by
            rw [List.length_set, hentries]
          have htake : (entries.set num entry).take (num + 1) = entries.take num ++ [entry] :=
            take_set_succ (by omega) entry
          have hroom : num + 1 + (lines.filterMap (parseLine bt)).length ≤ maxLinkKeys := by omega
          obtain ⟨hslots, hcount, hloaded⟩ := ih hset hroom
          rw [loadLines, if_pos (by omega), hline]
          dsimp only
          rw [List.length_cons, Nat.add_comm (List.length _) 1, ← Nat.add_assoc]
          refine ⟨hslots, hcount, ?_⟩
          rw [hloaded, htake, List.append_assoc]
          rfl

/-- The text of the file with the entries `l`. -/
def fileText (bt : AddrText) (l : List LinkKeyEntry) : List Char :=
  headerLine ++ '\n' :: l.flatMap (fun entry => entryLine bt entry ++ ['\n'])

theorem headerLine_plain :
  ∀ c ∈ headerLine, c ≠ '\n'
  := by
  have hplain : headerLine.all (· ≠ '\n') = true := by decide
  simpa only [List.all_eq_true, decide_eq_true_eq] using hplain

theorem lines_fileText (hbt : bt.Lawful) (l : List LinkKeyEntry) :
  Scan.lines lineSize (fileText bt l)
    = (headerLine ++ ['\n']) :: l.map (fun entry => entryLine bt entry ++ ['\n'])
  := by
  rw [fileText, Scan.lines_line, Scan.lines_flatMap]
  · intro entry _
    constructor
    · intro c hc
      apply (entryLine_plain hbt entry c hc).1
    · have hlength := length_entryLine hbt entry
      rw [lineSize]
      omega
  · apply headerLine_plain
  · decide

/-- A comment is no entry. -/
theorem parseLine_comment (s : List Char) :
  parseLine bt ('#' :: s) = none
  := by
  rw [parseLine, Scan.cString, List.takeWhile_cons_of_pos (by decide), if_pos]
  left
  rfl

theorem parseLine_header :
  parseLine bt (headerLine ++ ['\n']) = none
  := parseLine_comment _

/-- The lines of the file with the entries `l` are read as these. -/
theorem filterMap_lines_fileText (hbt : bt.Lawful) {l : List LinkKeyEntry}
    (hused : ∀ entry ∈ l, entry.used = true) :
  (Scan.lines lineSize (fileText bt l)).filterMap (parseLine bt) = l
  := by
  rw [lines_fileText hbt, List.filterMap_cons_none parseLine_header, List.filterMap_map]
  conv_rhs => rw [← List.filterMap_some (l := l)]
  apply List.filterMap_congr
  intro entry hentry
  apply parseLine_entryLine hbt entry (hused entry hentry) (.inr rfl)

end File

/-! ### The database is a bounded map -/

/-- The abstract database. -/
abbrev LinkKeyMap := BoundedMap BdAddr (LinkKey × Int32) maxLinkKeys

instance : NeZero maxLinkKeys := ⟨by decide⟩

/-- The slot of an entry of the map. -/
def slotOf (e : BdAddr × LinkKey × Int32) : LinkKeyEntry :=
  ⟨e.1, e.2.1, e.2.2, true⟩

theorem used_of_mem_map_slotOf {m : LinkKeyMap} {entry : LinkKeyEntry}
    (h : entry ∈ m.entries.map slotOf) :
  entry.used = true
  := by
  obtain ⟨e, -, rfl⟩ := List.mem_map.mp h
  rfl

/-- Shifting the slots behind a slot down closes the gap. -/
theorem memmove_gap {α : Type*} {l : List α} {i num : Nat} (hi : i < num) (hnum : num ≤ l.length) :
  (memmove l i (i + 1) (num - 1 - i)).length = l.length
    ∧ (memmove l i (i + 1) (num - 1 - i)).take (num - 1) = (l.take num).eraseIdx i
  := by
  have hfront : (l.take i ++ (l.drop (i + 1)).take (num - 1 - i)).length = num - 1 := by
    rw [List.length_append, List.length_take, List.length_take, List.length_drop]
    omega
  have htail : i + (num - 1 - i) = num - 1 := by omega
  constructor
  · rw [memmove, List.length_append, hfront, List.length_drop]
    omega
  · rw [memmove, List.take_left' hfront, List.eraseIdx_eq_take_drop_succ, List.take_take,
      List.drop_take]
    congr 2 <;> omega

/-- The slots of the database hold the map. -/
structure Holds (db : LinkKeyDb) (m : LinkKeyMap) : Prop where
  slots : db.entries.length = maxLinkKeys
  count : db.numEntries = m.entries.length
  stored_eq : db.stored = m.entries.map slotOf

/-- The file contains the map, which is empty when there is no file. -/
def Contains (bt : AddrText) (file : Option (List Char)) (m : LinkKeyMap) : Prop :=
  file = some (fileText bt (m.entries.map slotOf)) ∨ (file = none ∧ m.entries = [])

section Refinement

variable {bt : AddrText} {db : LinkKeyDb} {m : LinkKeyMap}

theorem holds_start (file : Option (List Char)) :
  Holds (LinkKeyDb.start file) BoundedMap.empty
  where
  slots := List.length_replicate
  count := rfl
  stored_eq := rfl

theorem Holds.findEntry_eq (h : Holds db m) (addr : BdAddr) :
  db.findEntry addr = m.entries.findIdx? (fun e => e.1 = addr)
  := by
  rw [LinkKeyDb.findEntry, ← LinkKeyDb.stored, h.stored_eq, List.findIdx?_map]
  congr

/-- Saving writes the map to the file. -/
theorem Holds.save (h : Holds db m) :
  Holds (db.saveToFile bt) m ∧ Contains bt (db.saveToFile bt).file m
  := by
  constructor
  · exact ⟨h.slots, h.count, h.stored_eq⟩
  · left
    rw [LinkKeyDb.saveToFile, ← LinkKeyDb.stored, h.stored_eq, List.filter_eq_self.mpr]
    · rfl
    · intro entry hentry
      apply used_of_mem_map_slotOf hentry

/-- Loading reads the map that the file contains. -/
theorem Holds.load (hbt : bt.Lawful) (h : Holds db m) {saved : LinkKeyMap}
    (hfile : Contains bt db.file saved) :
  Holds (db.loadFromFile bt) saved
  := by
  obtain hfile | ⟨hfile, hempty⟩ := hfile
  · have hroom : 0 + (saved.entries.map slotOf).length ≤ maxLinkKeys := by
      simpa using saved.length_le
    have hlines := filterMap_lines_fileText hbt (fun _ => used_of_mem_map_slotOf (m := saved))
    rw [← hlines] at hroom
    obtain ⟨hslots, hcount, htake⟩ := loadLines_spec h.slots hroom
    rw [LinkKeyDb.loadFromFile, hfile]
    dsimp only
    rw [Nat.zero_add, hlines] at hcount htake
    refine ⟨hslots, ?_, ?_⟩
    · rw [hcount, List.length_map]
    · rw [LinkKeyDb.stored, hcount, htake]
      rfl
  · rw [LinkKeyDb.loadFromFile, hfile]
    refine ⟨h.slots, ?_, ?_⟩
    · rw [hempty]
      rfl
    · rw [LinkKeyDb.stored, hempty]
      rfl

/-- Loading leaves the file as it is. -/
theorem loadFromFile_file :
  (db.loadFromFile bt).file = db.file
  := by
  rw [LinkKeyDb.loadFromFile]
  split
  · rfl
  · rfl

/-- `db_get_link_key` looks the address up. -/
theorem Holds.get (h : Holds db m) (addr : BdAddr) :
  db.dbGetLinkKey addr = m.lookup addr
  := by
  rw [LinkKeyDb.dbGetLinkKey, h.findEntry_eq]
  cases hfind : m.entries.findIdx? (fun e => e.1 = addr) with
  | none => rw [BoundedMap.lookup_eq_none_of_findIdx? hfind]
  | some idx =>
      obtain ⟨v, hslot, hlookup⟩ := BoundedMap.lookup_eq_of_findIdx? hfind
      have hlt : idx < db.numEntries := by
        rw [h.count]
        apply (List.getElem?_eq_some_iff.mp hslot).1
      have hentry : db.entries[idx]? = some (slotOf (addr, v)) := by
        have hstored : db.stored[idx]? = some (slotOf (addr, v)) := by
          rw [h.stored_eq, List.getElem?_map, hslot]
          rfl
        rw [← hstored, LinkKeyDb.stored, List.getElem?_take_of_lt hlt]
      dsimp only
      rw [hlookup, List.getD_eq_getElem?_getD, hentry]
      rfl

/-- The slot for a new address is behind the entries that are left when room is made. -/
theorem Holds.newSlot (h : Holds db m) :
  db.newSlot.1.entries.length = maxLinkKeys ∧ db.newSlot.1.numEntries = db.newSlot.2 + 1
    ∧ db.newSlot.2 = m.room.length ∧ db.newSlot.1.entries.take db.newSlot.2 = m.room.map slotOf
  := by
  have hslots := h.slots
  have hcount := h.count
  have hle := m.length_le
  have hstored := h.stored_eq
  rw [LinkKeyDb.stored] at hstored
  rw [LinkKeyDb.newSlot, BoundedMap.room]
  by_cases hfull : m.entries.length = maxLinkKeys
  · have hpos : 0 < db.numEntries := by
      rw [hcount, hfull]
      decide
    have hgap := memmove_gap (l := db.entries) hpos (by omega)
    rw [hcount, hfull] at hgap hstored
    rw [if_pos (by omega), if_pos hfull]
    refine ⟨?_, rfl, ?_, ?_⟩
    · dsimp only
      rw [← hslots]
      rw [← hslots] at hgap
      apply hgap.1
    · rw [List.length_tail, hfull]
    · dsimp only
      rw [List.map_tail, ← hstored, ← List.eraseIdx_zero]
      apply hgap.2
  · rw [if_neg (by omega), if_neg hfull]
    exact ⟨hslots, rfl, hcount, hstored⟩

/-- `db_put_link_key` puts the key into the map. -/
theorem Holds.put (h : Holds db m) (addr : BdAddr) (key : LinkKey) (type : Int32) :
  Holds (db.dbPutLinkKey bt addr key type) (m.put addr (key, type))
    ∧ Contains bt (db.dbPutLinkKey bt addr key type).file (m.put addr (key, type))
  := by
  rw [LinkKeyDb.dbPutLinkKey, h.findEntry_eq]
  apply Holds.save
  cases hfind : m.entries.findIdx? (fun e => e.1 = addr) with
  | some idx =>
      have hmem : addr ∈ m.keys := by
        by_contra hnew
        rw [BoundedMap.findIdx?_eq_none_iff.mpr hnew] at hfind
        contradiction
      have hput := BoundedMap.entries_put_old hmem (key, type)
      rw [BoundedMap.assign_eq_set _ m.nodup hfind] at hput
      refine ⟨?_, ?_, ?_⟩
      · dsimp only
        rw [List.length_set, h.slots]
      · rw [hput, List.length_set]
        apply h.count
      · rw [hput, List.map_set, ← h.stored_eq, LinkKeyDb.stored, LinkKeyDb.stored, List.take_set]
        rfl
  | none =>
      have hput := BoundedMap.entries_put_new (BoundedMap.findIdx?_eq_none_iff.mp hfind) (key, type)
      obtain ⟨hslots, hcount, hidx, htake⟩ := h.newSlot
      have hlt := m.length_room_lt
      refine ⟨?_, ?_, ?_⟩
      · dsimp only
        rw [List.length_set, hslots]
      · dsimp only
        rw [hput, List.length_append, hcount, hidx]
        rfl
      · rw [LinkKeyDb.stored, hput, List.map_append, ← htake]
        dsimp only
        rw [hcount, take_set_succ (by omega)]
        rfl

/-- `db_delete_link_key` removes the key from the map. -/
theorem Holds.delete (h : Holds db m) {addr : BdAddr} (hmem : addr ∈ m.keys) :
  Holds (db.dbDeleteLinkKey bt addr) (m.delete addr)
    ∧ Contains bt (db.dbDeleteLinkKey bt addr).file (m.delete addr)
  := by
  rw [LinkKeyDb.dbDeleteLinkKey, h.findEntry_eq]
  cases hfind : m.entries.findIdx? (fun e => e.1 = addr) with
  | none => exact absurd hmem (BoundedMap.findIdx?_eq_none_iff.mp hfind)
  | some idx =>
      apply Holds.save
      have hslots := h.slots
      have hcount := h.count
      have hle := m.length_le
      have hidx := (List.findIdx?_eq_some_iff_getElem.mp hfind).1
      have hentries : (m.delete addr).entries = m.entries.eraseIdx idx :=
        BoundedMap.filter_eq_eraseIdx m.nodup hfind
      have hbelow : idx < db.numEntries := by omega
      have hgap := memmove_gap (l := db.entries) hbelow (by omega)
      refine ⟨?_, ?_, ?_⟩
      · dsimp only
        split
        · rw [hgap.1, hslots]
        · apply hslots
      · dsimp only
        rw [hentries, List.length_eraseIdx_of_lt hidx, hcount]
      · rw [hentries, ← List.eraseIdx_map, ← h.stored_eq, LinkKeyDb.stored, LinkKeyDb.stored]
        dsimp only
        split
        · apply hgap.2
        · rename_i hlast
          have hnothing : db.numEntries - (idx + 1) = 0 := by omega
          rw [List.eraseIdx_eq_take_drop_succ, List.take_take, List.drop_take, hnothing,
            List.take_zero, List.append_nil]
          congr 1
          omega

theorem Holds.delete_of_notMem (h : Holds db m) {addr : BdAddr} (hmem : addr ∉ m.keys) :
  db.dbDeleteLinkKey bt addr = db
  := by
  rw [LinkKeyDb.dbDeleteLinkKey, h.findEntry_eq, BoundedMap.findIdx?_eq_none_iff.mpr hmem]

end Refinement

/-! ### Histories -/

/-- The history of the cache and the history of the file, their last edits first, and
whether the file has been opened since the program was started. -/
structure Timeline where
  cache : List (Edit BdAddr (LinkKey × Int32)) := []
  file : List (Edit BdAddr (LinkKey × Int32)) := []
  opened : Bool := false

namespace Timeline

/-- The map in the cache. -/
def map (timeline : Timeline) : LinkKeyMap :=
  ofHistory timeline.cache

/-- The cache and the file have the same new edit. -/
def edit (timeline : Timeline) (e : Edit BdAddr (LinkKey × Int32)) : Timeline :=
  { timeline with cache := e :: timeline.cache, file := e :: timeline.cache }

/-- What an operation adds to the histories: opening the database takes over the history of
the file, and every change is also a change of the file.  To delete a key that is not
there is no change. -/
def step (timeline : Timeline) : LinkKeyOp → Timeline
  | .restart => { timeline with cache := [], opened := false }
  | .dbOpen => { timeline with cache := timeline.file, opened := true }
  | .dbClose => timeline
  | .getLinkKey _ => timeline
  | .putLinkKey addr key type => timeline.edit (.put addr (key, type))
  | .deleteLinkKey addr =>
      if addr ∈ timeline.map.keys then timeline.edit (.delete addr) else timeline

/-- The histories after a list of operations. -/
def run (ops : List LinkKeyOp) : Timeline :=
  ops.foldl step {}

end Timeline

section Runs

variable {bt : AddrText} {db : LinkKeyDb} {timeline : Timeline}

/-- The cache holds and the file contains the maps of their histories, which agree once
the database is opened. -/
structure Follows (bt : AddrText) (db : LinkKeyDb) (timeline : Timeline) : Prop where
  holds : Holds db timeline.map
  contains : Contains bt db.file (ofHistory timeline.file)
  opened : timeline.opened = true → timeline.cache = timeline.file

theorem Follows.start :
  Follows bt (LinkKeyDb.start none) {}
  where
  holds := holds_start none
  contains := Or.inr ⟨rfl, rfl⟩
  opened := nofun

/-- Every operation keeps the database in step with its histories. -/
theorem Follows.step (hbt : bt.Lawful) (h : Follows bt db timeline) (op : LinkKeyOp) :
  Follows bt (db.step bt op) (timeline.step op)
  := by
  cases op with
  | restart => exact ⟨holds_start db.file, h.contains, nofun⟩
  | dbOpen =>
      refine ⟨h.holds.load hbt h.contains, ?_, fun _ => rfl⟩
      rw [LinkKeyDb.step, LinkKeyDb.dbOpen, loadFromFile_file]
      apply h.contains
  | dbClose => exact h
  | getLinkKey addr => exact h
  | putLinkKey addr key type =>
      constructor
      · apply (h.holds.put addr key type).1
      · apply (h.holds.put addr key type).2
      · intro _
        rfl
  | deleteLinkKey addr =>
      rw [LinkKeyDb.step, Timeline.step]
      split
      · rename_i hmem
        constructor
        · apply (h.holds.delete hmem).1
        · apply (h.holds.delete hmem).2
        · intro _
          rfl
      · rename_i hmem
        rw [h.holds.delete_of_notMem hmem]
        apply h

theorem follows_run (hbt : bt.Lawful) (ops : List LinkKeyOp) :
  Follows bt (LinkKeyDb.run bt ops) (Timeline.run ops)
  := by
  rw [LinkKeyDb.run, Timeline.run]
  induction ops using List.reverseRecOn with
  | nil => apply Follows.start
  | append_singleton ops op ih =>
      rw [List.foldl_append, List.foldl_append]
      apply ih.step hbt op

/-- The link key database is a bounded map that survives the program: with no file at
the beginning and for every list of operations, over any number of starts of the
program, the stored addresses are distinct and at most `maxLinkKeys`; the key of an address
is the one of its latest put that has since neither been deleted nor evicted; a put of a new
address into a full table drops the entry that was inserted first, keeps the others in
their order and adds the new one; and closing and opening again reproduces the entries of a
database that has been opened. -/
theorem linkKeyDb_boundedMap (hbt : bt.Lawful) (ops : List LinkKeyOp) :
  let db := LinkKeyDb.run bt ops
  let timeline := Timeline.run ops
  ((db.stored.map LinkKeyEntry.addr).Nodup ∧ db.stored.length ≤ maxLinkKeys)
    ∧ (∀ addr value, db.dbGetLinkKey addr = some value
        ↔ LatestPut maxLinkKeys timeline.cache addr value)
    ∧ (∀ addr key type, addr ∉ db.stored.map LinkKeyEntry.addr →
        db.stored.length = maxLinkKeys →
        ∃ oldest rest i, db.stored = oldest :: rest
          ∧ (db.dbPutLinkKey bt addr key type).stored = rest ++ [⟨addr, key, type, true⟩]
          ∧ InsertedAt maxLinkKeys timeline.cache i oldest.addr
          ∧ ∀ entry ∈ rest, ∃ j, i < j ∧ InsertedAt maxLinkKeys timeline.cache j entry.addr)
    ∧ (timeline.opened = true → (db.dbClose.dbOpen bt).stored = db.stored)
  := by
  have h := follows_run hbt ops
  generalize LinkKeyDb.run bt ops = db at h ⊢
  generalize Timeline.run ops = timeline at h ⊢
  have haddrs : db.stored.map LinkKeyEntry.addr = timeline.map.keys := by
    rw [h.holds.stored_eq, List.map_map]
    rfl
  refine ⟨⟨?_, ?_⟩, ?_, ?_, ?_⟩
  · rw [haddrs]
    apply timeline.map.nodup
  · rw [h.holds.stored_eq, List.length_map]
    apply timeline.map.length_le
  · intro addr value
    rw [h.holds.get]
    apply BoundedMap.lookup_ofHistory_iff
  · intro addr key type hnew hfull
    rw [haddrs] at hnew
    rw [h.holds.stored_eq, List.length_map] at hfull
    obtain ⟨oldest, rest, i, hentries, hput, hi, hrest⟩ :=
      BoundedMap.put_full hnew hfull (key, type)
    use slotOf oldest, rest.map slotOf, i
    refine ⟨?_, ?_, hi, ?_⟩
    · rw [h.holds.stored_eq, Timeline.map, hentries]
      rfl
    · rw [(h.holds.put addr key type).1.stored_eq, Timeline.map, hput, List.map_append]
      rfl
    · intro entry hentry
      obtain ⟨e, he, rfl⟩ := List.mem_map.mp hentry
      apply hrest e he
  · intro hopened
    have hload := h.holds.load hbt h.contains
    rw [← h.opened hopened] at hload
    rw [h.holds.stored_eq]
    apply hload.stored_eq

/-! ### Addresses in upper-case hexadecimal -/

/-- A byte in upper-case hexadecimal. -/
def upperHexByte (b : UInt8) : List Char :=
  (Scan.hexByte b).map Char.toUpper

/-- The bytes of an address, each of two hexadecimal digits and with a separator between
them. -/
def scanAddrBytes : Nat → List Char → Option (List UInt8)
  | 0, _ => some []
  | n + 1, hi :: lo :: s =>
      if Scan.digitValue hi < 16 ∧ Scan.digitValue lo < 16 then
        let s := if s.head? ∈ [some ':', some '-', some ' '] then s.tail else s
        (scanAddrBytes n s).map
          (UInt8.ofNat (16 * Scan.digitValue hi + Scan.digitValue lo) :: ·)
      else none
  | _ + 1, _ => none

/-- Addresses as BTstack writes and reads them. -/
def hexAddrText : AddrText where
  bdAddrToStrWithDelimiter addr delimiter :=
    List.intercalate [delimiter] ((List.ofFn addr).map upperHexByte)
  sscanfBdAddr s := (scanAddrBytes 6 s).map (fun bytes i => bytes.getD i 0)

theorem digitValue_toUpper_digitChar {d : Nat} (h : d < 16) :
  Scan.digitValue (Nat.digitChar d).toUpper = d
  := by
  interval_cases d <;> decide

theorem scanAddrBytes_upperHexByte (n : Nat) (b : UInt8) (s : List Char) :
  scanAddrBytes (n + 1) (upperHexByte b ++ s)
    = (scanAddrBytes n
        (if s.head? ∈ [some ':', some '-', some ' '] then s.tail else s)).map (b :: ·)
  := by
  have hb : b.toNat < 256 := b.toNat_lt
  have hhi := digitValue_toUpper_digitChar (d := b.toNat / 16) (by omega)
  have hlo := digitValue_toUpper_digitChar (d := b.toNat % 16) (by omega)
  have hbyte : UInt8.ofNat (16 * (b.toNat / 16) + b.toNat % 16) = b := by
    rw [Nat.div_add_mod, UInt8.ofNat_toNat]
  rw [upperHexByte, Scan.hexByte, List.map_cons, List.map_cons, List.map_nil, List.cons_append,
    List.cons_append, List.nil_append, scanAddrBytes, hhi, hlo, if_pos (by omega), hbyte]

theorem digit_upperHexByte {b : UInt8} {c : Char} (h : c ∈ upperHexByte b) :
  Scan.digitValue c < 16
  := by
  have hb : b.toNat < 256 := b.toNat_lt
  simp only [upperHexByte, Scan.hexByte, List.map_cons, List.map_nil, List.mem_cons,
    List.not_mem_nil, or_false] at h
  obtain rfl | rfl := h
  · rw [digitValue_toUpper_digitChar] <;> omega
  · rw [digitValue_toUpper_digitChar] <;> omega

theorem hexAddrText_eq (addr : BdAddr) :
  hexAddrText.bdAddrToStrWithDelimiter addr '-'
    = upperHexByte (addr 0) ++ '-' :: (upperHexByte (addr 1) ++ '-' :: (upperHexByte (addr 2)
      ++ '-' :: (upperHexByte (addr 3) ++ '-' :: (upperHexByte (addr 4)
        ++ '-' :: upperHexByte (addr 5)))))
  := by
  simp [hexAddrText, List.ofFn_succ, List.intercalate]

theorem hexAddrText_lawful :
  hexAddrText.Lawful
  where
  length_eq addr := by
    rw [hexAddrText_eq]
    rfl
  digit addr c hc := by
    rw [hexAddrText_eq] at hc
    simp only [List.mem_append, List.mem_cons] at hc
    by_cases hdash : c = '-'
    · right
      apply hdash
    · left
      simp only [hdash, false_or] at hc
      obtain h | h | h | h | h | h := hc <;> apply digit_upperHexByte h
  scan addr s := by
    rw [hexAddrText_eq]
    simp only [hexAddrText, List.append_assoc, List.cons_append, scanAddrBytes_upperHexByte,
      List.head?_cons, List.tail_cons, List.mem_cons, true_or, or_true, if_true]
    rw [scanAddrBytes]
    simp only [Option.map_some, Option.some.injEq]
    funext i
    fin_cases i <;> rfl

/-- A key that is put before the program ends is there when the program has started again
and has opened the database. -/
theorem linkKeyDb_boundedMap_restarted :
  (LinkKeyDb.run hexAddrText [.putLinkKey (fun _ => 0x5A) (fun _ => 0xC3) 4, .restart,
    .dbOpen]).dbGetLinkKey (fun _ => 0x5A) = some (fun _ => 0xC3, 4)
  := ((linkKeyDb_boundedMap hexAddrText_lawful _).2.1 _ _).mpr LatestPut.put

end Runs

end Ssc
