import QuotientScoring.DB.Schema
import QuotientScoring.Lib.Base64
import QuotientScoring.Lib.Replace
import Mathlib.Data.List.Infix
import Mathlib.Data.List.TakeWhile

/-! The keys of the session cookies, from one start of the server to the next.

The first start draws the keys and writes them into a file, line by line; every later one reads
them there. A start may be stopped after any of its writes, and one whose write fails does not
notice.

`keys_survive`: the file is never written again, no start fails over it, and each comes up with
what the first has written of its keys; so that, if it has drawn and written both, the cookies of
one start are those of every other. A key that could not be drawn is read back as an empty one. -/
namespace QuotientScoring.WWW
open DB GoText Replace

/-- The keys for `securecookie.New`. Without a block key cookies are not encrypted; one that is
there and empty is an error to it. -/
structure CookieKeys where
  hashKey : Option GoString := none
  blockKey : Option GoString := none
deriving DecidableEq, Repr

/-- The keys of 64 and of 32 bytes that a start draws, or none where it cannot draw. -/
structure DrawnKeys extends CookieKeys where
  hashKey_le : ∀ key ∈ hashKey, key.length ≤ 64
  blockKey_le : ∀ key ∈ blockKey, key.length ≤ 32

def hashWord : GoString := str "hashKey="

def blockWord : GoString := str "blockKey="

def keyComment : GoString := str "# AUTOMATICALLY GENERATED BY INIT DO NOT TOUCH"

/-- A key that there is none of is written as an empty one. -/
def keyLines (keys : CookieKeys) : List GoString :=
  [keyComment, hashWord ++ Base64.encode Base64.std true (keys.hashKey.getD []),
    blockWord ++ Base64.encode Base64.std true (keys.blockKey.getD [])]

/-- A file of lines. -/
def textOf (lines : List GoString) : GoString := lines.flatMap (fun line => line ++ [10])

def dropCR (line : GoString) : GoString := if line.getLast? = some 13 then line.dropLast else line

/-- The lines a `bufio.Scanner` finds. It stops at one that its buffer is too small for. -/
def scanLines (text : GoString) : List GoString :=
  let pieces := text.splitOn 10
  let lines := if pieces.getLast? = some [] then pieces.dropLast else pieces
  (lines.takeWhile (fun line => line.length < 65536)).map dropCR

/-- `none` is the end of the process. -/
def readLine (keys : CookieKeys) (line : GoString) : Option CookieKeys :=
  if hashWord <:+: line then
    (Base64.decodeString Base64.std (replaceAll hashWord [] line)).map (fun key =>
      {keys with hashKey := some key})
  else if blockWord <:+: line then
    (Base64.decodeString Base64.std (replaceAll blockWord [] line)).map (fun key =>
      {keys with blockKey := some key})
  else some keys

def readKeys (text : GoString) : Option CookieKeys := (scanLines text).foldlM readLine {}

/-- The file, and the keys of the process that is up. -/
structure KeySite where
  file : Option GoString := none
  keys : Option CookieKeys := none
deriving DecidableEq, Repr

/-- A start: what it would draw, how many lines it would get into the file, and whether it
comes to the end of `init`. -/
structure Start where
  drawn : DrawnKeys
  written : Nat
  comesUp : Bool

def KeySite.start (s : KeySite) (a : Start) : KeySite :=
  match s.file with
  | none =>
    { file := some (textOf ((keyLines a.drawn.toCookieKeys).take a.written))
      keys := if a.comesUp then some a.drawn.toCookieKeys else none }
  | some text => {s with keys := if a.comesUp then readKeys text else none}

/-- The keys that were drawn, as far as the first lines tell. -/
def DrawnKeys.kept (keys : DrawnKeys) (written : Nat) : CookieKeys where
  hashKey := if 2 ≤ written then some (keys.hashKey.getD []) else none
  blockKey := if 3 ≤ written then some (keys.blockKey.getD []) else none

/-! ### A word in a line

Both words end with `y=`, and a `y` stands for 50, so that in what is written in base 64 it is
before no `=`. -/

/-- Where a word that ends with a separator occurs in a text, as far as its first separator. -/
theorem infix_before {w u v : GoString} {e : UInt8} (hw : e ∉ w) (hu : e ∉ u)
    (h : w ++ [e] <:+: u ++ e :: v) : w <:+ u ∨ w ++ [e] <:+: v := by
  obtain ⟨s, t, heq⟩ := h
  have heq' : (s ++ w) ++ e :: t = u ++ e :: v := by
    rw [← heq, List.append_assoc, List.append_assoc, List.append_assoc]
    rfl
  rcases List.append_eq_append_iff.mp heq' with ⟨between, rfl, hrest⟩ | ⟨between, hsw, hrest⟩
  · cases between with
    | nil => exact .inl ⟨s, (List.append_nil _).symm⟩
    | cons c between =>
      obtain ⟨rfl, -⟩ := List.cons.inj hrest
      exact absurd (by simp) hu
  · cases between with
    | nil => exact .inl ⟨s, hsw.trans (List.append_nil _)⟩
    | cons c between =>
      obtain ⟨rfl, hv⟩ := List.cons.inj hrest
      have hsw' : s ++ w = (u ++ [e]) ++ between := by rw [hsw, List.append_assoc]; rfl
      -- The separator of `u` is not in the word, which therefore begins after it.
      rcases List.append_eq_append_iff.mp hsw' with ⟨a, ha, rfl⟩ | ⟨a, rfl, rfl⟩
      · rcases List.eq_nil_or_concat a with rfl | ⟨a, c, rfl⟩
        · exact .inr ⟨[], t, by rw [hv, List.nil_append, List.nil_append, List.append_assoc]; rfl⟩
        · have hlast := congrArg List.getLast? ha
          rw [List.concat_eq_append, ← List.append_assoc, List.getLast?_concat,
            List.getLast?_concat] at hlast
          obtain rfl := Option.some.inj hlast
          exact absurd (by simp) hw
      · have hv' : v = (a ++ w) ++ e :: t := hv
        refine .inr ⟨a, t, ?_⟩
        rw [hv', List.append_assoc, List.append_assoc, List.append_assoc]
        rfl

def y : UInt8 := 121

theorem not_beforePad_y : ¬Base64.BeforePad Base64.std y Base64.equals := by
  intro h
  rcases h rfl with heq | ⟨n, hn, heq⟩
  · exact absurd heq (by decide)
  · revert heq
    revert n
    decide +kernel

theorem y_equals_not_infix (key : GoString) :
    ¬[y, Base64.equals] <:+: Base64.encode Base64.std true key := by
  rintro ⟨s, t, heq⟩
  have hchain := Base64.before_pad (a := Base64.std) key
  rw [← heq, List.append_assoc] at hchain
  have hpair := hchain.right_of_append.left_of_append
  exact not_beforePad_y (List.isChain_cons_cons.mp hpair).1

theorem not_in_encoded {word : GoString} (hword : [y, Base64.equals] <:+ word) (key : GoString) :
    ¬word <:+: Base64.encode Base64.std true key :=
  fun h => y_equals_not_infix key (hword.isInfix.trans h)

theorem hashWord_not_in_blockLine (key : GoString) :
    ¬hashWord <:+: blockWord ++ Base64.encode Base64.std true key := by
  intro h
  have hcut := infix_before (w := str "hashKey") (u := str "blockKey") (e := Base64.equals)
    (v := Base64.encode Base64.std true key) (by decide +kernel) (by decide +kernel)
  have hline : str "blockKey" ++ Base64.equals :: Base64.encode Base64.std true key =
      blockWord ++ Base64.encode Base64.std true key := rfl
  rw [hline] at hcut
  rcases hcut h with hsuffix | hinside
  · exact absurd hsuffix (by decide +kernel)
  · exact not_in_encoded (by decide +kernel) key hinside

/-! ### Reading the lines -/

theorem strip_word {word : GoString} (hword : [y, Base64.equals] <:+ word) (key : GoString) :
    replaceAll word [] (word ++ Base64.encode Base64.std true key) =
      Base64.encode Base64.std true key := by
  have hne : word ≠ [] := by
    rintro rfl
    exact absurd hword (by decide)
  rw [replaceAll_old_append hne, replaceAll_absent hne (not_in_encoded hword key), List.nil_append]

theorem readLine_comment (keys : CookieKeys) : readLine keys keyComment = some keys := by
  rw [readLine, if_neg (by decide +kernel), if_neg (by decide +kernel)]

theorem readLine_hash (keys : CookieKeys) (key : GoString) :
    readLine keys (hashWord ++ Base64.encode Base64.std true key) =
      some {keys with hashKey := some key} := by
  rw [readLine, if_pos (List.prefix_append _ _).isInfix, strip_word (by decide +kernel),
    Base64.decodeString_encode, Option.map_some]

theorem readLine_block (keys : CookieKeys) (key : GoString) :
    readLine keys (blockWord ++ Base64.encode Base64.std true key) =
      some {keys with blockKey := some key} := by
  rw [readLine, if_neg (hashWord_not_in_blockLine key), if_pos (List.prefix_append _ _).isInfix,
    strip_word (by decide +kernel), Base64.decodeString_encode, Option.map_some]

theorem foldlM_readLine {keys keys' : CookieKeys} {line : GoString}
    (h : readLine keys line = some keys') (rest : List GoString) :
    (line :: rest).foldlM readLine keys = rest.foldlM readLine keys' := by
  rw [List.foldlM_cons, h]
  rfl

/-- As many lines as there are. -/
theorem foldlM_keyLines (keys : DrawnKeys) (written : Nat) :
    ((keyLines keys.toCookieKeys).take written).foldlM readLine {} = some (keys.kept written) := by
  match written with
  | 0 => rfl
  | 1 => exact foldlM_readLine (readLine_comment {}) []
  | 2 =>
    exact (foldlM_readLine (readLine_comment {}) _).trans
      (foldlM_readLine (readLine_hash {} (keys.hashKey.getD [])) [])
  | n + 3 =>
    have hkept : keys.kept (n + 3) =
        ⟨some (keys.hashKey.getD []), some (keys.blockKey.getD [])⟩ := by simp [DrawnKeys.kept]
    have hall : (keyLines keys.toCookieKeys).take (n + 3) = keyLines keys.toCookieKeys :=
      List.take_of_length_le (by simp [keyLines])
    rw [hkept, hall, keyLines, foldlM_readLine (readLine_comment {}),
      foldlM_readLine (readLine_hash {} _)]
    exact foldlM_readLine (readLine_block _ _) []

/-! ### The lines of the file -/

/-- A line that a `bufio.Scanner` finds as it was written. -/
structure Scannable (line : GoString) : Prop where
  lineBreak : 10 ∉ line
  carriageReturn : 13 ∉ line
  short : line.length < 65536

theorem splitOn_textOf {lines : List GoString} (h : ∀ line ∈ lines, Scannable line) :
    (textOf lines).splitOn 10 = lines ++ [[]] := by
  induction lines with
  | nil => rfl
  | cons line rest ih =>
    have hline := (h line List.mem_cons_self).lineBreak
    have htext : textOf (line :: rest) = line ++ 10 :: textOf rest := by
      rw [textOf, List.flatMap_cons, List.append_assoc]
      rfl
    rw [htext, List.splitOn_append_cons_self_of_not_mem hline,
      ih (fun l hl => h l (List.mem_cons_of_mem line hl)), List.cons_append]

theorem scanLines_textOf {lines : List GoString} (h : ∀ line ∈ lines, Scannable line) :
    scanLines (textOf lines) = lines := by
  have hshort : lines.takeWhile (fun line => line.length < 65536) = lines :=
    List.takeWhile_eq_self_iff.mpr (fun line hline => decide_eq_true (h line hline).short)
  have hkeep : lines.map dropCR = lines := by
    refine (List.map_congr_left (fun line hline => ?_)).trans (List.map_id lines)
    refine if_neg (fun hlast => ?_)
    exact (h line hline).carriageReturn (List.mem_of_getLast? hlast)
  rw [scanLines, splitOn_textOf h, List.getLast?_concat, if_pos rfl, List.dropLast_concat, hshort,
    hkeep]

theorem scannable_keyLine {word key : GoString} (hword : Scannable word)
    (hshort : word.length < 100) (hkey : key.length ≤ 64) :
    Scannable (word ++ Base64.encode Base64.std true key) := by
  have hplain : ∀ c ∈ Base64.encode Base64.std true key, c ≠ 10 ∧ c ≠ 13 := by
    intro c hc
    rcases Base64.mem_encode hc with hc | rfl
    · exact (Base64.std.plain c hc).2
    · decide
  constructor
  · intro hmem
    rcases List.mem_append.mp hmem with hmem | hmem
    · exact hword.lineBreak hmem
    · exact (hplain 10 hmem).1 rfl
  · intro hmem
    rcases List.mem_append.mp hmem with hmem | hmem
    · exact hword.carriageReturn hmem
    · exact (hplain 13 hmem).2 rfl
  · rw [Base64.encode_true, List.length_append, List.length_append, List.length_replicate,
      Base64.length_encode]
    omega

theorem scannable_keyLines (keys : DrawnKeys) :
    ∀ line ∈ keyLines keys.toCookieKeys, Scannable line := by
  have hhash : (keys.hashKey.getD []).length ≤ 64 := by
    cases hkey : keys.hashKey with
    | none => exact Nat.zero_le _
    | some key => exact keys.hashKey_le key hkey
  have hblock : (keys.blockKey.getD []).length ≤ 32 := by
    cases hkey : keys.blockKey with
    | none => exact Nat.zero_le _
    | some key => exact keys.blockKey_le key hkey
  have hhashWord : Scannable hashWord := ⟨by decide +kernel, by decide +kernel, by decide +kernel⟩
  have hblockWord : Scannable blockWord := ⟨by decide +kernel, by decide +kernel, by decide +kernel⟩
  intro line hline
  rw [keyLines, List.mem_cons, List.mem_pair] at hline
  rcases hline with rfl | rfl | rfl
  · exact ⟨by decide +kernel, by decide +kernel, by decide +kernel⟩
  · exact scannable_keyLine hhashWord (by decide +kernel) hhash
  · exact scannable_keyLine hblockWord (by decide +kernel) (by omega)

/-- A start reads what the first one has written. -/
theorem readKeys_written (keys : DrawnKeys) (written : Nat) :
    readKeys (textOf ((keyLines keys.toCookieKeys).take written)) = some (keys.kept written) := by
  have hlines : ∀ line ∈ (keyLines keys.toCookieKeys).take written, Scannable line :=
    fun line hline => scannable_keyLines keys line (List.mem_of_mem_take hline)
  rw [readKeys, scanLines_textOf hlines, foldlM_keyLines]

/-! ### The starts -/

theorem start_of_file {s : KeySite} {text : GoString} (h : s.file = some text) (a : Start) :
    s.start a = {s with keys := if a.comesUp then readKeys text else none} := by
  rw [KeySite.start, h]

theorem file_foldl_start {s : KeySite} {text : GoString} (h : s.file = some text)
    (starts : List Start) : (starts.foldl KeySite.start s).file = some text := by
  induction starts generalizing s with
  | nil => exact h
  | cons a rest ih =>
    apply ih
    rw [start_of_file h]
    exact h

/-- The file keeps the lines that the first start has written, and every later start that comes to
the end of `init` comes up with the keys of those lines. These are the keys of the first one if
exactly the keys that it has drawn have their lines. -/
theorem keys_survive (first : Start) (later : List Start) (next : Start) :
    let site := later.foldl KeySite.start (KeySite.start {} first)
    let kept := first.drawn.kept first.written
    site.file = some (textOf ((keyLines first.drawn.toCookieKeys).take first.written)) ∧
      (site.start next).keys = (if next.comesUp then some kept else none) ∧
      (kept = first.drawn.toCookieKeys ↔
        (first.drawn.hashKey.isSome ↔ 2 ≤ first.written) ∧
          (first.drawn.blockKey.isSome ↔ 3 ≤ first.written)) := by
  intro site kept
  have hfile : site.file =
      some (textOf ((keyLines first.drawn.toCookieKeys).take first.written)) :=
    file_foldl_start rfl later
  refine ⟨hfile, ?_, ?_⟩
  · rw [start_of_file hfile, readKeys_written]
  · have hparts : kept = first.drawn.toCookieKeys ↔
        kept.hashKey = first.drawn.hashKey ∧ kept.blockKey = first.drawn.blockKey := by
      constructor
      · intro h
        exact ⟨congrArg CookieKeys.hashKey h, congrArg CookieKeys.blockKey h⟩
      · intro h
        exact congrArg₂ CookieKeys.mk h.1 h.2
    have hkey : ∀ (n : Nat) (key : Option GoString),
        (if n ≤ first.written then some (key.getD []) else none) = key ↔
          (key.isSome ↔ n ≤ first.written) := by
      intro n key
      by_cases h : n ≤ first.written
      · cases key <;> simp [h]
      · cases key <;> simp [h]
    rw [hparts]
    exact and_congr (hkey 2 _) (hkey 3 _)

end QuotientScoring.WWW
