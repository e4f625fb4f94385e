import AnnotatedRoutes.Routing.Record
import Mathlib.Data.List.Forall2
import Mathlib.Tactic.SplitIfs

namespace AnnotatedRoutes.Json

/-- A JSON value. Numbers are kept as they are spelled. -/
inductive Value where
  | null
  | bool (b : Bool)
  | number (spelling : Text)
  | string (t : Text)
  | array (items : List Value)
  | object (members : List (Text × Value))

/-- What a reader makes of a text: a result, and what follows. -/
abbrev Reader (α : Type) := Text → Option (α × Text)

/-- Blanks between the parts of a value. -/
def isGap (c : Char) : Bool := c = ' ' || c = '\t' || c = '\n' || c = '\r'

def skipGap (t : Text) : Text := t.dropWhile isGap

def hexValue? (c : Char) : Option Nat :=
  let n := c.toNat
  if 48 ≤ n ∧ n ≤ 57 then some (n - 48)
  else if 65 ≤ n ∧ n ≤ 70 then some (n - 55)
  else if 97 ≤ n ∧ n ≤ 102 then some (n - 87)
  else none

/-- Sixteen bits in four hexadecimal digits. -/
def readUnit : Reader Nat
  | a :: b :: c :: d :: t => do
    let a ← hexValue? a
    let b ← hexValue? b
    let c ← hexValue? c
    let d ← hexValue? d
    return (16 * (16 * (16 * a + b) + c) + d, t)
  | _ => none

/-- The character after `\u`: one unit, or two surrogates with another `\u` between them. A
surrogate on its own is no character. -/
def readCharacter : Reader Char := fun t => do
  let (unit, t) ← readUnit t
  if unit < 0xD800 ∨ 0xE000 ≤ unit then
    return (Char.ofNat unit, t)
  let (low, t) ← (Text.after? "\\u".toList t).bind readUnit
  if unit < 0xDC00 ∧ 0xDC00 ≤ low ∧ low < 0xE000 then
    return (Char.ofNat (0x10000 + 0x400 * (unit - 0xD800) + (low - 0xDC00)), t)
  none

/-- The characters that a backslash and one more character stand for. -/
def shortEscapes : List (Char × Char) :=
  [('"', '"'), ('\\', '\\'), ('/', '/'), ('b', '\x08'), ('f', '\x0c'), ('n', '\n'), ('r', '\r'),
   ('t', '\t')]

/-- The character that an escape stands for, after the backslash. -/
def readEscape : Reader Char
  | [] => none
  | 'u' :: t => readCharacter t
  | c :: t => (shortEscapes.lookup c).map fun meant => (meant, t)

/-- A character of a string, which is no closing quote. -/
def readStringChar : Reader Char
  | [] => none
  | '"' :: _ => none
  | '\\' :: t => readEscape t
  | c :: t => if c.toNat < 0x20 then none else some (c, t)

/-- The rest of a string after its opening quote; it has less than `bound` characters. -/
def readString : Nat → Reader Text
  | 0, _ => none
  | _ + 1, '"' :: t => some ([], t)
  | bound + 1, t => do
    let (c, t) ← readStringChar t
    let (cs, t) ← readString bound t
    return (c :: cs, t)

def isNumberChar (c : Char) : Bool := c.isDigit || c ∈ ['+', '-', '.', 'e', 'E']

def skipDigits (t : Text) : Text := t.dropWhile Char.isDigit

def skipSign : Text → Text
  | '+' :: t => t
  | '-' :: t => t
  | t => t

/-- Nothing, or the power of ten of a number. -/
def isExponent : Text → Bool
  | [] => true
  | e :: t => (e = 'e' || e = 'E') && skipSign t ≠ [] && skipDigits (skipSign t) = []

/-- Nothing, or the fraction of a number, and its exponent. -/
def isFraction : Text → Bool
  | '.' :: c :: t => c.isDigit && isExponent (skipDigits t)
  | t => isExponent t

def isMagnitude : Text → Bool
  | [] => false
  | '0' :: t => isFraction t
  | c :: t => c.isDigit && isFraction (skipDigits t)

def isNumber : Text → Bool
  | '-' :: t => isMagnitude t
  | t => isMagnitude t

def readNumber : Reader Value := fun t =>
  let spelling := t.takeWhile isNumberChar
  if isNumber spelling then some (.number spelling, t.dropWhile isNumberChar) else none

/-- The values that are words. -/
def valueWords : List (Text × Value) :=
  [("null".toList, .null), ("true".toList, .bool true), ("false".toList, .bool false)]

def readWord : Reader Value := fun t =>
  valueWords.findSome? fun word => (Text.after? word.1 t).map fun t => (word.2, t)

variable {α : Type}

/-- At least one part and at most `bound` of them, with commas between them, up to a closing
character. -/
def readParts (part : Reader α) (close : Char) : Nat → Reader (List α)
  | 0, _ => none
  | bound + 1, t => do
    let (a, t) ← part t
    match skipGap t with
    | [] => none
    | c :: t =>
      if c = close then return ([a], t)
      if c = ',' then
        let (as, t) ← readParts part close bound t
        return (a :: as, t)
      none

/-- The parts of an array or an object after its opening character. -/
def readList (part : Reader α) (close : Char) : Reader (List α) := fun t =>
  match skipGap t with
  | [] => none
  | c :: rest => if c = close then some ([], rest) else readParts part close t.length t

/-- A key and its value. -/
def readMember (value : Reader Value) : Reader (Text × Value) := fun t =>
  match skipGap t with
  | '"' :: t => do
    let (key, t) ← readString t.length t
    match skipGap t with
    | ':' :: t => (value t).map fun (v, t) => ((key, v), t)
    | _ => none
  | _ => none

/-- A value with less than `depth` levels. -/
def readValue : Nat → Reader Value
  | 0, _ => none
  | depth + 1, t =>
    match skipGap t with
    | '"' :: t => (readString t.length t).map fun (s, t) => (.string s, t)
    | '[' :: t => (readList (readValue depth) ']' t).map fun (items, t) => (.array items, t)
    | '\x7b' :: t =>
      (readList (readMember (readValue depth)) '\x7d' t).map fun (members, t) =>
        (.object members, t)
    | t => (readWord t).or (readNumber t)

/-- The value that a text spells, with nothing but blanks around it. -/
def read? (t : Text) : Option Value :=
  match readValue (t.length + 1) t with
  | some (v, rest) => if rest.all isGap then some v else none
  | none => none

theorem hexValue?_digitChar : ∀ d < 16, hexValue? (Nat.digitChar d) = some d := by decide

theorem readUnit_hexDigits {n : Nat} (h : n < 0x10000) (rest : Text) :
    readUnit (Text.hexDigits 4 n ++ rest) = some (n, rest) := by
  have hdigit : ∀ m, hexValue? (Nat.digitChar (m % 16)) = some (m % 16) :=
    fun m => hexValue?_digitChar _ (Nat.mod_lt m (by decide))
  simp only [Text.hexDigits, List.nil_append, List.cons_append, readUnit, hdigit,
    Option.bind_eq_bind, Option.bind_some, Option.pure_def]
  congr 2
  omega

theorem readCharacter_hexDigits {c : Char} (h : c.toNat < 0xD800) (rest : Text) :
    readCharacter (Text.hexDigits 4 c.toNat ++ rest) = some (c, rest) := by
  simp only [readCharacter, readUnit_hexDigits (Nat.lt_trans h (by decide)), Option.bind_eq_bind,
    Option.bind_some, if_pos (Or.inl h : c.toNat < 0xD800 ∨ _), Char.ofNat_toNat]
  rfl

theorem readStringChar_escape (c : Char) (rest : Text) :
    readStringChar (escape c ++ rest) = some (c, rest) := by
  unfold escape
  split_ifs with hquote hbackslash hfeed hreturn htab hback hpage hcontrol
  all_goals try (subst c; rfl)
  · exact readCharacter_hexDigits (Nat.lt_trans hcontrol (by decide)) rest
  · rw [List.singleton_append, readStringChar, if_neg hcontrol]
    · exact fun h => hquote h
    · exact fun h => hbackslash h

theorem readString_of_readStringChar {t rest : Text} {c : Char}
    (h : readStringChar t = some (c, rest)) (bound : Nat) :
    readString (bound + 1) t =
      (readString bound rest).map fun (cs, rest) => (c :: cs, rest) := by
  rw [readString]
  · simp only [h, Option.bind_eq_bind, Option.bind_some]
    cases readString bound rest <;> rfl
  · rintro t rfl
    cases h

theorem length_escape_pos (c : Char) : 0 < (escape c).length := by
  have h := readStringChar_escape c []
  rw [List.append_nil] at h
  rw [List.length_pos_iff]
  rintro hnil
  rw [hnil] at h
  cases h

theorem length_le_escape (t : Text) : t.length ≤ (t.flatMap escape).length := by
  induction t with
  | nil => exact Nat.zero_le _
  | cons c t ih =>
    have := length_escape_pos c
    rw [List.flatMap_cons, List.length_append, List.length_cons]
    omega

theorem readString_of_lt {t : Text} {bound : Nat} (h : t.length < bound) (rest : Text) :
    readString bound (t.flatMap escape ++ '"' :: rest) = some (t, rest) := by
  induction t generalizing bound with
  | nil =>
    obtain ⟨bound, rfl⟩ := Nat.exists_eq_succ_of_ne_zero (Nat.ne_of_gt h)
    rfl
  | cons c t ih =>
    obtain ⟨bound, rfl⟩ := Nat.exists_eq_succ_of_ne_zero (Nat.ne_of_gt (Nat.zero_lt_of_lt h))
    rw [List.flatMap_cons, List.append_assoc,
      readString_of_readStringChar (readStringChar_escape c _), ih (Nat.lt_of_succ_lt_succ h)]
    rfl

/-- Every text is read from the characters that are written for it. -/
theorem readString_escape (t rest : Text) :
    readString (t.flatMap escape ++ '"' :: rest).length (t.flatMap escape ++ '"' :: rest) =
      some (t, rest) := by
  refine readString_of_lt ?_ rest
  have := length_le_escape t
  rw [List.length_append, List.length_cons]
  omega

theorem skipGap_append {gap : Text} (h : ∀ c ∈ gap, isGap c) (t : Text) :
    skipGap (gap ++ t) = skipGap t :=
  List.dropWhile_append_of_pos h

theorem skipGap_cons {c : Char} (h : isGap c = false) (t : Text) : skipGap (c :: t) = c :: t :=
  List.dropWhile_cons_of_neg (by simp [h])

/-- Characters that a string, an array or an object begins with. -/
def openings : List Char := ['"', '[', '\x7b']

/-- Characters that an array or an object ends with. -/
def closings : List Char := [']', '\x7d']

theorem isGap_of_opening : ∀ c ∈ openings, isGap c = false := by simp [openings, isGap]

theorem isGap_of_closing : ∀ c ∈ closings, isGap c = false := by simp [closings, isGap]

theorem closing_ne_comma : ∀ c ∈ closings, ',' ≠ c := by simp [closings]

theorem opening_ne_closing : ∀ c ∈ openings, ∀ c' ∈ closings, c ≠ c' := by
  simp [openings, closings]

theorem isGap_of_mem_blank : ∀ c ∈ [' '], isGap c := by simp [isGap]

/-- A reader finds what is written behind any blanks, whatever follows. -/
structure ReadAs (part : Reader α) (written : Text) (a : α) : Prop where
  opens : ∃ c ∈ openings, ∃ t, written = c :: t
  reads : ∀ gap rest, (∀ c ∈ gap, isGap c) → part (gap ++ (written ++ rest)) = some (a, rest)

namespace ReadAs

variable {part : Reader α} {w : Text} {a : α} {ws : List Text} {as : List α} {sep : Text}

theorem length_pos (h : ReadAs part w a) : 0 < w.length := by
  obtain ⟨c, -, t, rfl⟩ := h.opens
  exact Nat.succ_pos _

theorem opens_join (h : ReadAs part w a) (sep : Text) (ws : List Text) :
    ∃ c ∈ openings, ∃ t, Text.join sep (w :: ws) = c :: t := by
  obtain ⟨c, hc, t, rfl⟩ := h.opens
  cases ws with
  | nil => exact ⟨c, hc, t, rfl⟩
  | cons w' ws => exact ⟨c, hc, _, rfl⟩

theorem length_le_join (h : List.Forall₂ (ReadAs part) ws as) :
    ws.length ≤ (Text.join sep ws).length := by
  induction h with
  | nil => exact Nat.zero_le _
  | @cons w a ws as hw hws ih =>
    have hpos := hw.length_pos
    cases ws with
    | nil => simpa [Text.join] using Nat.succ_le_of_lt hpos
    | cons w' ws =>
      simp only [Text.join, List.length_append, List.length_cons] at ih ⊢
      omega

end ReadAs

theorem readParts_join {part : Reader α} {close : Char} (hclose : close ∈ closings)
    {ws : List Text} {as : List α} (h : List.Forall₂ (ReadAs part) ws as) (hne : ws ≠ [])
    {bound : Nat} (hbound : ws.length ≤ bound) (gap : Text) (hgap : ∀ c ∈ gap, isGap c)
    (rest : Text) :
    readParts part close bound (gap ++ (Text.join ", ".toList ws ++ close :: rest)) =
      some (as, rest) := by
  induction h generalizing bound gap with
  | nil => exact absurd rfl hne
  | @cons w a ws as hw hws ih =>
    obtain ⟨bound, rfl⟩ := Nat.exists_eq_succ_of_ne_zero
      (Nat.ne_of_gt (Nat.lt_of_lt_of_le (Nat.succ_pos _) hbound))
    cases ws with
    | nil =>
      cases hws
      simp only [readParts, Text.join, hw.reads gap _ hgap, Option.bind_eq_bind, Option.bind_some,
        skipGap_cons (isGap_of_closing close hclose), if_true]
      rfl
    | cons w' ws =>
      have hjoin : Text.join ", ".toList (w :: w' :: ws) ++ close :: rest =
          w ++ ',' :: ([' '] ++ (Text.join ", ".toList (w' :: ws) ++ close :: rest)) := by
        simp [Text.join]
      -- the blank behind the comma is the gap before the next part
      have hrest := ih (List.cons_ne_nil _ _) (Nat.le_of_succ_le_succ hbound)
        [' '] isGap_of_mem_blank
      simp only [hjoin, readParts, hw.reads gap _ hgap, Option.bind_eq_bind, Option.bind_some,
        skipGap_cons (show isGap ',' = false from rfl), if_neg (closing_ne_comma close hclose),
        if_true, hrest]
      rfl

/-- Parts in brackets are read as a list of what the parts are read as. -/
theorem readList_join {part : Reader α} {close : Char} (hclose : close ∈ closings)
    {ws : List Text} {as : List α} (h : List.Forall₂ (ReadAs part) ws as) (rest : Text) :
    readList part close (Text.join ", ".toList ws ++ close :: rest) = some (as, rest) := by
  cases h with
  | nil =>
    simp only [readList, Text.join, List.nil_append, skipGap_cons (isGap_of_closing close hclose),
      if_true]
  | @cons w a ws as hw hws =>
    have hparts := List.Forall₂.cons hw hws
    have hbound : (w :: ws).length ≤
        (Text.join ", ".toList (w :: ws) ++ close :: rest).length := by
      rw [List.length_append]
      exact Nat.le_trans (ReadAs.length_le_join hparts) (Nat.le_add_right _ _)
    have hread := readParts_join hclose hparts (List.cons_ne_nil w ws) hbound []
      (by simp) rest
    obtain ⟨c, hc, t, ht⟩ := hw.opens_join ", ".toList ws
    rw [List.nil_append] at hread
    rw [ht, List.cons_append] at hread ⊢
    simp only [readList, skipGap_cons (isGap_of_opening c hc),
      if_neg (opening_ne_closing c hc close hclose), hread]

namespace ReadAs

variable {w : Text} {v : Value} {depth : Nat}

theorem member {value : Reader Value} (h : ReadAs value w v) (key : Text) :
    ReadAs (readMember value) (Json.string key ++ ": ".toList ++ w) (key, v) where
  opens := ⟨'"', by decide, _, rfl⟩
  reads gap rest hgap := by
    have hwritten : Json.string key ++ ": ".toList ++ w ++ rest =
        '"' :: (key.flatMap escape ++ '"' :: ':' :: ([' '] ++ (w ++ rest))) := by
      simp [Json.string]
    have hread := h.reads [' '] rest isGap_of_mem_blank
    have hquote : isGap '"' = false := rfl
    have hcolon : isGap ':' = false := rfl
    simp only [readMember, skipGap_append hgap, hwritten, skipGap_cons hquote,
      readString_escape key, Option.bind_eq_bind, Option.bind_some, skipGap_cons hcolon, hread,
      Option.map_some]

theorem string (depth : Nat) (t : Text) :
    ReadAs (readValue (depth + 1)) (Json.string t) (.string t) where
  opens := ⟨'"', by decide, _, rfl⟩
  reads gap rest hgap := by
    have hwritten : Json.string t ++ rest = '"' :: (t.flatMap escape ++ '"' :: rest) := by
      simp [Json.string]
    rw [readValue, skipGap_append hgap, hwritten, skipGap_cons (by rfl)]
    simp only [readString_escape, Option.map_some]

theorem array {ws : List Text} {vs : List Value}
    (h : List.Forall₂ (ReadAs (readValue depth)) ws vs) :
    ReadAs (readValue (depth + 1)) (Json.array ws) (.array vs) where
  opens := ⟨'[', by decide, _, rfl⟩
  reads gap rest hgap := by
    have hwritten : Json.array ws ++ rest = '[' :: (Text.join ", ".toList ws ++ ']' :: rest) := by
      simp [Json.array]
    rw [readValue, skipGap_append hgap, hwritten, skipGap_cons (by rfl)]
    simp only [readList_join (show ']' ∈ closings by decide) h rest, Option.map_some]

theorem object {members : List (Text × Text)} {values : List (Text × Value)}
    (h : List.Forall₂ (fun m v => m.1 = v.1 ∧ ReadAs (readValue depth) m.2 v.2) members values) :
    ReadAs (readValue (depth + 1)) (Json.object members) (.object values) where
  opens := ⟨'\x7b', by decide, _, rfl⟩
  reads gap rest hgap := by
    have hmembers : List.Forall₂ (ReadAs (readMember (readValue depth)))
        (members.map fun m => Json.string m.1 ++ ": ".toList ++ m.2) values := by
      refine List.forall₂_map_left_iff.mpr (h.imp fun m v hv => ?_)
      obtain ⟨hkey, hvalue⟩ := hv
      exact hkey ▸ hvalue.member m.1
    have hread := readList_join (show '\x7d' ∈ closings by decide) hmembers rest
    have hwritten : Json.object members ++ rest = '\x7b' ::
        (Text.join ", ".toList (members.map fun m => Json.string m.1 ++ ": ".toList ++ m.2) ++
          '\x7d' :: rest) := by
      simp [Json.object]
    rw [readValue, skipGap_append hgap, hwritten, skipGap_cons (by rfl)]
    simp only [hread, Option.map_some]

end ReadAs

theorem read?_of_readAs {w : Text} {v : Value} (h : ReadAs (readValue (w.length + 1)) w v) :
    read? w = some v := by
  have hread := h.reads [] [] (by simp)
  rw [List.nil_append, List.append_nil] at hread
  simp [read?, hread]

/-- Escapes are read that are never written. -/
example : read? " [\"\\u0041\\ud83d\\ude00\", -1.5e3]".toList =
    some (.array [.string ['A', '😀'], .number "-1.5e3".toList]) := by rfl

theorem newline_not_mem_escape (c : Char) : '\n' ∉ escape c := by
  unfold escape
  split_ifs with hquote hbackslash hfeed hreturn htab hback hpage hcontrol
  all_goals try decide
  · have hdigit : ∀ d < 16, '\n' ≠ Nat.digitChar d := by decide
    have hdigits : ∀ m, '\n' ≠ Nat.digitChar (m % 16) :=
      fun m => hdigit _ (Nat.mod_lt m (by decide))
    simp [Text.hexDigits, hdigits]
  · simpa using Ne.symm hfeed

theorem newline_not_mem_string (t : Text) : '\n' ∉ string t := by
  simp [string, newline_not_mem_escape]

theorem newline_not_mem_join {sep : Text} (hsep : '\n' ∉ sep) {ws : List Text}
    (h : ∀ w ∈ ws, '\n' ∉ w) : '\n' ∉ Text.join sep ws := by
  induction ws with
  | nil => exact List.not_mem_nil
  | cons w ws ih =>
    obtain ⟨hw, hws⟩ := List.forall_mem_cons.mp h
    cases ws with
    | nil => exact hw
    | cons w' ws => simpa [Text.join, hw, hsep] using ih hws

theorem newline_not_mem_array {ws : List Text} (h : ∀ w ∈ ws, '\n' ∉ w) : '\n' ∉ array ws := by
  simpa [array] using newline_not_mem_join (by decide) h

theorem newline_not_mem_object {members : List (Text × Text)} (h : ∀ m ∈ members, '\n' ∉ m.2) :
    '\n' ∉ object members := by
  have hmember : ∀ m ∈ members, '\n' ∉ string m.1 ++ ": ".toList ++ m.2 := by
    intro m hm
    simp [newline_not_mem_string, h m hm]
  have hjoin := newline_not_mem_join (show '\n' ∉ ", ".toList by decide)
    (List.forall_mem_map.mpr hmember)
  simpa [object] using hjoin

end AnnotatedRoutes.Json
