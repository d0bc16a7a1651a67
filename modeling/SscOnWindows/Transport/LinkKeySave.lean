import SscOnWindows.Transport.LinkKeyDb

/-!
# Failures of saving the link keys

`save_to_file` writes a temporary file and renames it to the file of the link keys.  It does not
look at what `fprintf` and `fclose` return, so that the temporary file is renamed also when not all
of its text is in it.
-/

namespace Ssc

namespace LinkKeyDb

/-- The entries that are saved. -/
def inUse (db : LinkKeyDb) : List LinkKeyEntry :=
  (db.entries.take db.numEntries).filter (·.used)

/-- The texts of the calls of `fprintf` in `save_to_file`. -/
def writes (bt : AddrText) (db : LinkKeyDb) : List (List Char) :=
  (headerLine ++ ['\n']) :: db.inUse.map (fun entry => entryLine bt entry ++ ['\n'])

/-- The entries of the lines of a text. -/
def readEntries (bt : AddrText) (text : List Char) : List LinkKeyEntry :=
  (Scan.lines lineSize text).filterMap (parseLine bt)

/-- The entries a program that starts with the file loads from it. -/
def loads (bt : AddrText) (file : Option (List Char)) : List LinkKeyEntry :=
  ((start file).loadFromFile bt).stored

end LinkKeyDb

/-- Where saving can fail: `fopen` of the temporary file, the calls of `fprintf` and `fclose`, or
`MoveFileExA`. -/
inductive SavePoint where
  | opening
  | writing
  | moving
  deriving DecidableEq

/-- A failure of saving.  Where it is in the writing, `reached i` characters of the text of call
number `i` get to the stream, and `flushed` characters of what is in the stream get to the file. -/
inductive SaveFailure where
  | opening
  | writing (reached : Nat → Nat) (flushed : Nat)
  | moving

namespace SaveFailure

/-- Where the failure is. -/
def point : SaveFailure → SavePoint
  | opening => .opening
  | writing _ _ => .writing
  | moving => .moving

end SaveFailure

namespace LinkKeyDb

/-- The text of the temporary file when the stream is closed. -/
def temporary (bt : AddrText) (reached : Nat → Nat) (flushed : Nat) (db : LinkKeyDb) : List Char :=
  ((db.writes bt).mapIdx fun i text => text.take (reached i)).flatten.take flushed

/-- `save_to_file` with a failure. -/
def saveFailing (bt : AddrText) (db : LinkKeyDb) : SaveFailure → LinkKeyDb
  | .opening => db
  | .writing reached flushed => { db with file := some (db.temporary bt reached flushed) }
  | .moving => db

/-- Whatever the failure at the point is, the file holds the entries from before or those that are
saved without a failure. -/
def SavesAtomically (bt : AddrText) (db : LinkKeyDb) (point : SavePoint) : Prop :=
  ∀ failure : SaveFailure, failure.point = point →
    loads bt (db.saveFailing bt failure).file = loads bt db.file
      ∨ loads bt (db.saveFailing bt failure).file = loads bt (db.saveToFile bt).file

variable {bt : AddrText} {db : LinkKeyDb}

/-! ### What is loaded -/

/-- The entries of a text are those of its lines. -/
theorem loads_of_lines {text : List Char} {l : List LinkKeyEntry}
    (hlines : readEntries bt text = l)
    (hlength : l.length ≤ maxLinkKeys) :
  loads bt (some text) = l
  := by
  have hslots : (start (some text)).entries.length = maxLinkKeys := List.length_replicate
  rw [readEntries] at hlines
  rw [← hlines, ← Nat.zero_add (List.length _)] at hlength
  obtain ⟨-, hcount, htake⟩ := loadLines_spec hslots hlength
  rw [Nat.zero_add, hlines] at hcount htake
  rw [loads, loadFromFile, stored]
  change (loadLines bt (start (some text)).entries 0 (Scan.lines lineSize text)).1.take
    (loadLines bt (start (some text)).entries 0 (Scan.lines lineSize text)).2 = _
  rw [hcount, htake]
  rfl

theorem used_of_mem_inUse {entry : LinkKeyEntry} (h : entry ∈ db.inUse) :
  entry.used = true
  := by
  rw [inUse, List.mem_filter] at h
  apply h.2

theorem loads_fileText (hbt : bt.Lawful) {l : List LinkKeyEntry}
    (hused : ∀ entry ∈ l, entry.used = true) (hlength : l.length ≤ maxLinkKeys) :
  loads bt (some (fileText bt l)) = l
  := by
  apply loads_of_lines (filterMap_lines_fileText hbt hused) hlength

theorem length_inUse (hdb : db.entries.length = maxLinkKeys) :
  db.inUse.length ≤ maxLinkKeys
  := by
  rw [← hdb, inUse]
  apply le_trans (List.length_filter_le _ _)
  apply List.length_take_le'

theorem saveToFile_file :
  (db.saveToFile bt).file = some (fileText bt db.inUse)
  := rfl

theorem flatten_writes :
  (db.writes bt).flatten = fileText bt db.inUse
  := by
  rw [writes, List.flatten_cons, fileText, ← List.flatMap_def, List.append_assoc]
  rfl

/-- Saving loads as the entries in use. -/
theorem loads_saveToFile (hbt : bt.Lawful) (hdb : db.entries.length = maxLinkKeys) :
  loads bt (db.saveToFile bt).file = db.inUse
  := by
  rw [saveToFile_file]
  apply loads_fileText hbt (fun _ => used_of_mem_inUse) (length_inUse hdb)

/-- Any number of characters at the front of the text can get to the file. -/
theorem exists_temporary_eq_take (bt : AddrText) (db : LinkKeyDb) (flushed : Nat) :
  ∃ reached, db.temporary bt reached flushed = (fileText bt db.inUse).take flushed
  := by
  use fun i => ((db.writes bt)[i]?.getD []).length
  have hmap : (db.writes bt).mapIdx
      (fun i text => text.take ((db.writes bt)[i]?.getD []).length) = db.writes bt := by
    apply List.ext_getElem?
    intro i
    rw [List.getElem?_mapIdx]
    cases hi : (db.writes bt)[i]? with
    | none => rfl
    | some text => simp
  rw [temporary, hmap, flatten_writes]

/-! ### Parts of the text -/

/-- A part of a line has at most one entry. -/
theorem readEntries_take {text : List Char} (htext : ∀ c ∈ text, c ≠ '\n')
    (hsize : text.length + 2 ≤ lineSize) {n : Nat} (hn : 0 < n) :
  readEntries bt ((text ++ ['\n']).take n) = (parseLine bt ((text ++ ['\n']).take n)).toList
  := by
  rw [readEntries, Scan.lines_take htext hsize hn, List.filterMap_cons]
  cases parseLine bt ((text ++ ['\n']).take n) with
  | none => rfl
  | some entry => rfl

theorem readEntries_header (text : List Char) :
  readEntries bt (headerLine ++ '\n' :: text) = readEntries bt text
  := by
  rw [readEntries, Scan.lines_line headerLine_plain (by decide),
    List.filterMap_cons_none parseLine_header]
  rfl

theorem length_headerLine :
  headerLine.length = 64
  := by
  decide

/-- A line that begins in the header is a comment. -/
theorem readEntries_header_part (hbt : bt.Lawful) (entry : LinkKeyEntry) {n : Nat} (hpos : 0 < n)
    (hn : n ≤ headerLine.length) (m : Nat) :
  readEntries bt (headerLine.take n ++ (entryLine bt entry ++ ['\n']).take m) = []
  := by
  have hplain : ∀ c ∈ headerLine.take n ++ entryLine bt entry, c ≠ '\n' := by
    intro c hc
    rcases List.mem_append.mp hc with hc | hc
    · apply headerLine_plain c (List.take_subset _ _ hc)
    · apply (entryLine_plain hbt entry c hc).1
  have hlength := (length_entryLine hbt entry).2
  have hheader : (headerLine.take n).length = n := by
    rw [List.length_take, Nat.min_eq_left hn]
  have htake : headerLine.take n ++ (entryLine bt entry ++ ['\n']).take m
      = ((headerLine.take n ++ entryLine bt entry) ++ ['\n']).take (n + m) := by
    conv_rhs => rw [List.append_assoc, List.take_append, hheader, Nat.add_sub_cancel_left,
      List.take_of_length_le (by omega)]
  rw [length_headerLine] at hn
  rw [htake, readEntries_take hplain _ (by omega), ← htake]
  · obtain ⟨k, rfl⟩ := Nat.exists_eq_succ_of_ne_zero (Nat.ne_of_gt hpos)
    rw [show headerLine.take (k + 1) = '#' :: headerLine.tail.take k from rfl, List.cons_append,
      parseLine_comment]
    rfl
  · rw [List.length_append, hheader, lineSize]
    omega

theorem parseLine_of_short {line : List Char} (h : line.length < 52) :
  parseLine bt line = none
  := by
  have hstring : (Scan.cString line).length ≤ line.length :=
    (List.takeWhile_sublist _).length_le
  rw [parseLine]
  split
  · rfl
  · split
    · rfl
    · rw [if_pos]
      rw [keyHexLen]
      omega

/-- A part of the line of an entry is no entry, if the type is one digit. -/
theorem parseLine_part (hbt : bt.Lawful) {entry : LinkKeyEntry}
    (htype : entry.type.toInt.natAbs < 10) {m : Nat} (hm : m < (entryLine bt entry).length) :
  parseLine bt ((entryLine bt entry).take m) = none
  := by
  rcases Nat.lt_or_ge m 52 with hshort | hlong
  · apply parseLine_of_short
    rw [List.length_take]
    omega
  · have hline : entryLine bt entry
        = lineOf bt entry.addr entry.key (Scan.decimal entry.type.toInt) := by
      have happend := @entryLine_append bt entry []
      rw [List.append_nil, List.append_nil] at happend
      apply happend
    have hdigits := Nat.toDigits_of_lt_base htype
    rw [Scan.decimal, hdigits] at hline
    rw [hline, length_lineOf hbt] at hm
    split at hline
    case isTrue hneg =>
      rw [if_pos hneg] at hm
      obtain rfl : m = 51 + 1 := by
        simp only [List.length_cons, List.length_nil] at hm
        omega
      rw [hline, take_lineOf hbt, parseLine_lineOf hbt _ _ (by simp) (by simp)]
      rfl
    case isFalse hneg =>
      rw [if_neg hneg, List.length_singleton] at hm
      omega

/-- A part of the line of an entry whose type is one digit is nothing or the entry. -/
theorem readEntries_entryLine_part (hbt : bt.Lawful) {entry : LinkKeyEntry}
    (hused : entry.used = true) (htype : entry.type.toInt.natAbs < 10) (m : Nat) :
  readEntries bt ((entryLine bt entry ++ ['\n']).take m) = []
    ∨ readEntries bt ((entryLine bt entry ++ ['\n']).take m) = [entry]
  := by
  have hplain : ∀ c ∈ entryLine bt entry, c ≠ '\n' := fun c hc => (entryLine_plain hbt entry c hc).1
  have hlength := (length_entryLine hbt entry).2
  rcases Nat.eq_zero_or_pos m with rfl | hpos
  · left
    rfl
  · rw [readEntries_take hplain (by rw [lineSize]; omega) hpos]
    rcases Nat.lt_or_ge (entryLine bt entry).length m with hm | hm
    · right
      rw [List.take_of_length_le (by rw [List.length_append]; apply hm),
        parseLine_entryLine hbt entry hused (.inr rfl)]
      rfl
    · rw [List.take_append_of_le_length hm]
      rcases Nat.lt_or_ge m (entryLine bt entry).length with hlt | hge
      · left
        rw [parseLine_part hbt htype hlt]
        rfl
      · right
        have hparse := parseLine_entryLine hbt entry hused (.inl rfl)
        rw [List.append_nil] at hparse
        rw [List.take_of_length_le hge, hparse]
        rfl

/-- Behind a part of the header there is nothing, or what is there without it. -/
theorem readEntries_parts (hbt : bt.Lawful) (entry : LinkKeyEntry) (n m : Nat) :
  readEntries bt ((headerLine ++ ['\n']).take n ++ (entryLine bt entry ++ ['\n']).take m) = []
    ∨ readEntries bt ((headerLine ++ ['\n']).take n ++ (entryLine bt entry ++ ['\n']).take m)
      = readEntries bt ((entryLine bt entry ++ ['\n']).take m)
  := by
  rcases Nat.eq_zero_or_pos n with rfl | hpos
  · right
    rfl
  · rcases Nat.lt_or_ge headerLine.length n with hn | hn
    · right
      rw [List.take_of_length_le (by rw [List.length_append]; apply hn), List.append_assoc,
        List.singleton_append, readEntries_header]
    · left
      rw [List.take_append_of_le_length hn]
      apply readEntries_header_part hbt entry hpos hn

/-- The temporary file of a table with one entry consists of a part of the header and a part of
the line. -/
theorem temporary_single (bt : AddrText) {entry : LinkKeyEntry} (hdb : db.inUse = [entry])
    (reached : Nat → Nat) (flushed : Nat) :
  ∃ n m, db.temporary bt reached flushed
    = (headerLine ++ ['\n']).take n ++ (entryLine bt entry ++ ['\n']).take m
  := by
  have hwrites : ((db.writes bt).mapIdx fun i text => text.take (reached i)).flatten
      = (headerLine ++ ['\n']).take (reached 0)
        ++ (entryLine bt entry ++ ['\n']).take (reached 1) := by
    rw [writes, hdb]
    simp
  rw [temporary, hwrites, List.take_append, List.take_take, List.take_take]
  exact ⟨_, _, rfl⟩

/-- The temporary file of an empty table is a part of the header. -/
theorem temporary_empty (bt : AddrText) (hdb : db.inUse = []) (reached : Nat → Nat)
    (flushed : Nat) :
  ∃ n, db.temporary bt reached flushed = (headerLine ++ ['\n']).take n
  := by
  have hwrites : ((db.writes bt).mapIdx fun i text => text.take (reached i)).flatten
      = (headerLine ++ ['\n']).take (reached 0) := by
    rw [writes, hdb]
    simp
  rw [temporary, hwrites, List.take_take]
  exact ⟨_, rfl⟩

/-! ### Types of several digits -/

/-- Without its last digit the type of an entry is another one. -/
theorem loads_without_digit (hbt : bt.Lawful) {entry : LinkKeyEntry}
    (htype : 10 ≤ entry.type.toInt.natAbs) :
  ∃ cut, cut ≠ entry
    ∧ loads bt (some ((fileText bt [entry]).take ((fileText bt [entry]).length - 2))) = [cut]
  := by
  obtain ⟨q, c, hdecimal, hq⟩ := Scan.exists_decimal_eq_append htype
  have hle := entry.type.le_toInt
  have hlt := entry.type.toInt_lt
  have hread : (Int32.ofInt q).toInt = q := Int32.toInt_ofInt_of_le (by omega) (by omega)
  let cut : LinkKeyEntry := ⟨entry.addr, entry.key, Int32.ofInt q, true⟩
  have hline : entryLine bt entry = entryLine bt cut ++ [c] := by
    simp [entryLine, cut, hread, hdecimal]
  have htext : (fileText bt [entry]).take ((fileText bt [entry]).length - 2)
      = headerLine ++ '\n' :: entryLine bt cut := by
    have hfile : fileText bt [entry] = (headerLine ++ '\n' :: entryLine bt cut) ++ [c, '\n'] := by
      simp [fileText, hline]
    rw [hfile, List.length_append]
    apply List.take_left'
    simp
  have hcut := parseLine_entryLine hbt cut rfl (.inl rfl)
  rw [List.append_nil] at hcut
  have hlength := length_entryLine hbt cut
  have hlines : readEntries bt (headerLine ++ '\n' :: entryLine bt cut) = [cut] := by
    have htake := @readEntries_take bt _ (fun c hc => (entryLine_plain hbt cut c hc).1)
      (show (entryLine bt cut).length + 2 ≤ lineSize by rw [lineSize]; omega)
      _ (show 0 < (entryLine bt cut).length by omega)
    rw [List.take_left, hcut] at htake
    rw [readEntries_header, htake]
    rfl
  use cut
  constructor
  · intro heq
    have htoInt : (Int32.ofInt q).toInt = entry.type.toInt := congrArg (·.type.toInt) heq
    rw [hread] at htoInt
    omega
  · rw [htext]
    apply loads_of_lines hlines (show 1 ≤ maxLinkKeys by decide)

/-! ### The law -/

/-- A failure in the writing leaves the entries of the temporary file. -/
theorem savesAtomically_writing (hbt : bt.Lawful) (hdb : db.entries.length = maxLinkKeys) :
  db.SavesAtomically bt .writing
    ↔ ∀ reached flushed, loads bt (some (db.temporary bt reached flushed)) = loads bt db.file
      ∨ loads bt (some (db.temporary bt reached flushed)) = db.inUse
  := by
  rw [← loads_saveToFile hbt hdb]
  constructor
  · intro h reached flushed
    apply h (.writing reached flushed) rfl
  · intro h failure hpoint
    cases failure with
    | writing reached flushed => apply h
    | opening => cases hpoint
    | moving => cases hpoint

/-- When every part of the text at its front loads as the entries of the file or as those in use,
none is in use, or the file has none and one is, whose type is one digit. -/
theorem inUse_of_take (hbt : bt.Lawful)
    (htake : ∀ k, loads bt (some ((fileText bt db.inUse).take k)) = loads bt db.file
      ∨ loads bt (some ((fileText bt db.inUse).take k)) = db.inUse) :
  db.inUse = []
    ∨ (loads bt db.file = [] ∧ ∃ entry, db.inUse = [entry] ∧ entry.type.toInt.natAbs < 10)
  := by
  have hused : ∀ entry ∈ db.inUse, entry.used = true := fun _ => used_of_mem_inUse
  cases hentries : db.inUse with
  | nil =>
      left
      rfl
  | cons entry rest =>
      right
      rw [hentries] at htake hused
      have hfile : loads bt db.file = [] := by
        rcases htake 0 with heq | heq
        · apply heq.symm
        · cases heq
      obtain rfl : rest = [] := by
        have hfirst : fileText bt (entry :: rest) = fileText bt [entry]
            ++ rest.flatMap (fun entry => entryLine bt entry ++ ['\n']) := by
          simp [fileText]
        have hsingle : loads bt (some (fileText bt [entry])) = [entry] :=
          loads_fileText hbt (by simpa using hused entry) (show 1 ≤ maxLinkKeys by decide)
        have hloads := htake (fileText bt [entry]).length
        rw [hfirst, List.take_left, hsingle] at hloads
        rcases hloads with heq | heq
        · rw [hfile] at heq
          cases heq
        · apply (List.cons.inj heq).2.symm
      use hfile, entry, rfl
      by_contra htype
      obtain ⟨cut, hcut, hloads⟩ := loads_without_digit hbt (Nat.le_of_not_lt htype)
      have heq := htake ((fileText bt [entry]).length - 2)
      rw [hloads] at heq
      rcases heq with heq | heq
      · rw [hfile] at heq
        cases heq
      · apply hcut (List.cons.inj heq).1

/-- Without an entry in use the temporary file loads as none. -/
theorem loads_temporary_empty (hbt : bt.Lawful) (hempty : db.inUse = []) (reached : Nat → Nat)
    (flushed : Nat) :
  loads bt (some (db.temporary bt reached flushed)) = []
  := by
  obtain ⟨n, htemporary⟩ := temporary_empty bt hempty reached flushed
  have hparts := readEntries_parts hbt blankEntry n 0
  rw [List.take_zero, List.append_nil] at hparts
  have hlines : readEntries bt ((headerLine ++ ['\n']).take n) = [] := by
    rcases hparts with hparts | hparts
    · apply hparts
    · apply hparts
  rw [htemporary]
  apply loads_of_lines hlines (Nat.zero_le _)

/-- With one entry in use, whose type is one digit, it loads as none or as this one. -/
theorem loads_temporary_single (hbt : bt.Lawful) {entry : LinkKeyEntry}
    (hsingle : db.inUse = [entry]) (htype : entry.type.toInt.natAbs < 10) (reached : Nat → Nat)
    (flushed : Nat) :
  loads bt (some (db.temporary bt reached flushed)) = []
    ∨ loads bt (some (db.temporary bt reached flushed)) = [entry]
  := by
  obtain ⟨n, m, htemporary⟩ := temporary_single bt hsingle reached flushed
  have hused : entry.used = true := by
    apply used_of_mem_inUse
    rw [hsingle]
    apply List.mem_cons_self
  have hlines : readEntries bt ((headerLine ++ ['\n']).take n
        ++ (entryLine bt entry ++ ['\n']).take m) = []
      ∨ readEntries bt ((headerLine ++ ['\n']).take n
        ++ (entryLine bt entry ++ ['\n']).take m) = [entry] := by
    rcases readEntries_parts hbt entry n m with hparts | hparts
    · left
      apply hparts
    · rw [hparts]
      apply readEntries_entryLine_part hbt hused htype
  rw [htemporary]
  rcases hlines with hlines | hlines
  · left
    apply loads_of_lines hlines (Nat.zero_le _)
  · right
    apply loads_of_lines hlines (show 1 ≤ maxLinkKeys by decide)

/-- Saving is atomic if and only if the failure is not in the writing, or the table is empty, or the
file has had no entry and the table has one whose type is one digit. -/
theorem savesAtomically_iff (hbt : bt.Lawful) (hdb : db.entries.length = maxLinkKeys)
    (point : SavePoint) :
  db.SavesAtomically bt point
    ↔ point ≠ .writing ∨ db.inUse = []
      ∨ (loads bt db.file = []
        ∧ ∃ entry, db.inUse = [entry] ∧ entry.type.toInt.natAbs < 10)
  := by
  rcases eq_or_ne point .writing with rfl | hpoint
  · rw [savesAtomically_writing hbt hdb]
    constructor
    · intro h
      right
      apply inUse_of_take hbt
      intro k
      obtain ⟨reached, htemporary⟩ := exists_temporary_eq_take bt db k
      rw [← htemporary]
      apply h
    · rintro (hpoint | hempty | ⟨hfile, entry, hsingle, htype⟩) reached flushed
      · apply absurd rfl hpoint
      · right
        rw [hempty]
        apply loads_temporary_empty hbt hempty
      · rw [hfile, hsingle]
        apply loads_temporary_single hbt hsingle htype
  · constructor
    · intro _
      left
      apply hpoint
    · intro _ failure hfailure
      left
      cases failure with
      | opening => rfl
      | moving => rfl
      | writing reached flushed => apply absurd hfailure.symm hpoint

/-- The database behind the put of a first key, when it is to be saved. -/
def firstPut : LinkKeyDb :=
  { LinkKeyDb.run hexAddrText [.putLinkKey (fun _ => 0x5A) (fun _ => 0xC3) 4] with file := none }

/-- The database behind the put of a second key, when it is to be saved. -/
def secondPut : LinkKeyDb :=
  { LinkKeyDb.run hexAddrText [.putLinkKey (fun _ => 0x5A) (fun _ => 0xC3) 4,
      .putLinkKey (fun _ => 0x5B) (fun _ => 0x3C) 4] with
    file := (LinkKeyDb.run hexAddrText [.putLinkKey (fun _ => 0x5A) (fun _ => 0xC3) 4]).file }

/-- The first key is saved atomically, and so is the second if it is written. -/
theorem savesAtomically_puts :
  firstPut.SavesAtomically hexAddrText .writing ∧ secondPut.SavesAtomically hexAddrText .moving
  := by
  constructor
  · apply (savesAtomically_iff hexAddrText_lawful rfl .writing).mpr
    right
    right
    constructor
    · rfl
    · use ⟨fun _ => 0x5A, fun _ => 0xC3, 4, true⟩, rfl
      decide
  · apply (savesAtomically_iff hexAddrText_lawful rfl .moving).mpr
    left
    decide

/-- The second key is saved, and the disk is full when the stream is closed. -/
theorem not_savesAtomically_fullDisk :
  ¬ secondPut.SavesAtomically hexAddrText .writing
  := by
  intro h
  have hload := h (.writing (fun _ => 64) 0) rfl
  revert hload
  decide

end LinkKeyDb

end Ssc
