import Mathlib.Data.List.DropRight

/-!
# Strings as lists of scalar values

A string is the list of its Unicode scalar values, a byte string the list of
its bytes.  The operations are those of the Rust standard library that parsers
of line-based formats use: ASCII case folding, trimming by the Unicode
`White_Space` property, and splitting at the first occurrence of a pattern.
-/

namespace HellohqRuntime.Foundation.Strings

abbrev Text := List Char

abbrev Bytes := List UInt8

/-- The Unicode `White_Space` property. -/
def isWhitespace (c : Char) : Bool :=
  (0x9 ≤ c.toNat && c.toNat ≤ 0xD) || c.toNat == 0x20 || c.toNat == 0x85 ||
    c.toNat == 0xA0 || c.toNat == 0x1680 || (0x2000 ≤ c.toNat && c.toNat ≤ 0x200A) ||
    c.toNat == 0x2028 || c.toNat == 0x2029 || c.toNat == 0x202F || c.toNat == 0x205F ||
    c.toNat == 0x3000

/-- The Unicode general category `Cc`. -/
def isControl (c : Char) : Bool :=
  c.toNat ≤ 0x1F || (0x7F ≤ c.toNat && c.toNat ≤ 0x9F)

def toAsciiLowercase (text : Text) : Text := text.map Char.toLower

def eqIgnoreAsciiCase (left right : Text) : Bool :=
  toAsciiLowercase left == toAsciiLowercase right

def trimStart (text : Text) : Text := text.dropWhile isWhitespace

def trim (text : Text) : Text := (trimStart text).rdropWhile isWhitespace

/-- Split at the first occurrence of a pattern, which is in neither part. -/
def splitOnce {α : Type} [DecidableEq α] (pattern : List α) :
    List α → Option (List α × List α)
  | [] => if pattern = [] then some ([], []) else none
  | head :: rest =>
      if pattern.isPrefixOf (head :: rest) then
        some ([], (head :: rest).drop pattern.length)
      else
        (splitOnce pattern rest).map fun parts => (head :: parts.1, parts.2)

/-- The value of a hex digit of either case (`to_digit(16)`). -/
def toDigit16 (b : UInt8) : Option Nat :=
  if 0x30 ≤ b.toNat ∧ b.toNat ≤ 0x39 then some (b.toNat - 0x30)
  else if 0x61 ≤ b.toNat ∧ b.toNat ≤ 0x66 then some (b.toNat - 0x61 + 10)
  else if 0x41 ≤ b.toNat ∧ b.toNat ≤ 0x46 then some (b.toNat - 0x41 + 10)
  else none

/-! ## Digits -/

theorem toDigit16_digitChar {n : Nat} (hn : n < 16) :
    (Nat.digitChar n).toNat < 0x80 ∧ toDigit16 (UInt8.ofNat (Nat.digitChar n).toNat) = some n := by
  revert n
  decide

/-! ## Case folding -/

theorem eqIgnoreAsciiCase_iff {left right : Text} :
    eqIgnoreAsciiCase left right = true ↔ toAsciiLowercase left = toAsciiLowercase right := by
  simp [eqIgnoreAsciiCase]

/-- Only the letters from A to Z have another lower case. -/
theorem toLower_cases (c : Char) :
    (c.toLower = c ∧ ¬(65 ≤ c.toNat ∧ c.toNat ≤ 90)) ∨
      (65 ≤ c.toNat ∧ c.toNat ≤ 90 ∧ c.toLower.toNat = c.toNat + 32) := by
  have hA : 'A'.val.toNat = 65 := rfl
  have hZ : 'Z'.val.toNat = 90 := rfl
  unfold Char.toLower
  split
  · next hupper =>
      have hbounds : 65 ≤ c.toNat ∧ c.toNat ≤ 90 := hupper
      refine Or.inr ⟨hbounds.1, hbounds.2, ?_⟩
      have hsum : (c.val + ('a'.val - 'A'.val)).toNat = c.val.toNat + 32 := by
        have hshift : 'a'.val - 'A'.val = 32 := rfl
        have hval : c.val.toNat ≤ 90 := hbounds.2
        rw [hshift, UInt32.toNat_add]
        have h32 : (32 : UInt32).toNat = 32 := rfl
        omega
      exact hsum
  · next hother => exact Or.inl ⟨rfl, hother⟩

theorem isWhitespace_toLower (c : Char) : isWhitespace c.toLower = isWhitespace c := by
  obtain ⟨hsame, -⟩ | ⟨hlow, hhigh, hlower⟩ := toLower_cases c
  · rw [hsame]
  · have hplain : ∀ d : Char, 65 ≤ d.toNat → d.toNat ≤ 122 → isWhitespace d = false := by
      intro d hd hd'
      simp [isWhitespace]
      omega
    rw [hplain _ (by omega) (by omega), hplain _ (by omega) (by omega)]

/-! ## Trimming -/

theorem trimStart_eq_self {text : Text} (hfirst : ∀ c, text.head? = some c → isWhitespace c = false) :
    trimStart text = text := by
  cases text with
  | nil => rfl
  | cons first rest => simp [trimStart, hfirst first rfl]

/-- A text without white space is its own trimmed form. -/
theorem trim_eq_self {text : Text} (hplain : ∀ c ∈ text, isWhitespace c = false) :
    trim text = text := by
  have hstart : trimStart text = text :=
    trimStart_eq_self fun c hc => hplain c (List.mem_of_mem_head? hc)
  rw [trim, hstart, List.rdropWhile_eq_self_iff]
  intro hne
  simp [hplain _ (List.getLast_mem hne)]

theorem trim_toAsciiLowercase (text : Text) :
    trim (toAsciiLowercase text) = toAsciiLowercase (trim text) := by
  have hsame : isWhitespace ∘ Char.toLower = isWhitespace := by
    funext c
    exact isWhitespace_toLower c
  simp only [trim, trimStart, toAsciiLowercase, List.rdropWhile, List.dropWhile_map,
    ← List.map_reverse, hsame]

/-- A trimmed text is its own trimmed form. -/
@[simp] theorem trim_trim (text : Text) : trim (trim text) = trim text := by
  have hstart : trimStart (trim text) = trim text := by
    apply trimStart_eq_self
    intro c hc
    obtain ⟨rest, hrest⟩ : trim text <+: trimStart text := List.rdropWhile_prefix _ _
    have hfirst := List.head?_dropWhile_not isWhitespace text
    have hhead : (trimStart text).head? = some c := by
      rw [← hrest, List.head?_append, hc, Option.some_or]
    rw [trimStart] at hhead
    rw [hhead] at hfirst
    exact hfirst
  rw [trim, hstart]
  exact List.rdropWhile_idempotent _ _

/-! ## Splitting once -/

/-- A separator whose first element does not occur earlier splits where it stands. -/
theorem splitOnce_append {α : Type} [DecidableEq α] {sep : α} {tail before after : List α}
    (hbefore : sep ∉ before) :
    splitOnce (sep :: tail) (before ++ (sep :: tail) ++ after) = some (before, after) := by
  induction before with
  | nil =>
      have hprefix : (sep :: tail).isPrefixOf (sep :: (tail ++ after)) = true := by
        simp [List.isPrefixOf]
      simp [splitOnce, hprefix]
  | cons first rest ih =>
      rw [List.mem_cons, not_or] at hbefore
      have hhead : (sep :: tail).isPrefixOf (first :: (rest ++ (sep :: tail) ++ after)) = false := by
        simp [List.isPrefixOf, hbefore.1]
      rw [List.cons_append, List.cons_append, splitOnce, if_neg (by rw [hhead]; simp),
        ih hbefore.2]
      rfl

/-! ## Splitting into lines -/

/-- Lines that do not hold the separator come back when they are split at it. -/
theorem splitOn_lines {sep : Char} {first : Text} {lines : List Text}
    (hfirst : sep ∉ first) (hlines : ∀ line ∈ lines, sep ∉ line) :
    (first ++ lines.flatMap (sep :: ·)).splitOn sep = first :: lines := by
  induction lines generalizing first with
  | nil => simpa using List.splitOn_eq_singleton hfirst
  | cons line rest ih =>
      rw [List.flatMap_cons, List.cons_append,
        List.splitOn_append_cons_self_of_not_mem hfirst,
        ih (hlines line List.mem_cons_self)
          fun other hother => hlines other (List.mem_cons_of_mem line hother)]

/-- Lists of parts are joined one behind the other. -/
theorem intercalate_append {α : Type} {sep : List α} {parts more : List (List α)}
    (hparts : parts ≠ []) (hmore : more ≠ []) :
    sep.intercalate (parts ++ more) = sep.intercalate parts ++ sep ++ sep.intercalate more := by
  induction parts with
  | nil => exact absurd rfl hparts
  | cons part rest ih =>
      cases rest with
      | nil =>
          rw [List.singleton_append, List.intercalate_cons_of_ne_nil hmore,
            List.intercalate_singleton]
      | cons next rest =>
          have hnext : next :: rest ≠ [] := List.cons_ne_nil next rest
          have hfront : sep.intercalate (part :: next :: rest) =
              part ++ sep ++ sep.intercalate (next :: rest) :=
            List.intercalate_cons_of_ne_nil hnext
          rw [List.cons_append, List.intercalate_cons_of_ne_nil (by simp), ih hnext, hfront]
          simp only [List.append_assoc]

/-- The parts of one text end those of another exactly if the text is the other one,
or ends it behind a separator. -/
theorem splitOn_suffix_splitOn {sep : Char} {text ending : Text} :
    ending.splitOn sep <:+ text.splitOn sep ↔ text = ending ∨ (sep :: ending) <:+ text := by
  constructor
  · rintro ⟨front, hfront⟩
    have htext := congrArg ([sep].intercalate ·) hfront
    simp only [List.intercalate_splitOn] at htext
    by_cases hempty : front = []
    · subst hempty
      rw [List.nil_append, List.intercalate_splitOn] at htext
      exact Or.inl htext.symm
    · rw [intercalate_append hempty (List.splitOn_ne_nil sep ending), List.intercalate_splitOn,
        List.append_assoc] at htext
      exact Or.inr ⟨_, htext⟩
  · rintro (rfl | ⟨front, rfl⟩)
    · exact List.suffix_rfl
    · rw [List.splitOn_append_cons_self]
      exact List.suffix_append _ _

theorem not_mem_intercalate {α : Type} {c : α} {sep : List α} {parts : List (List α)}
    (hsep : c ∉ sep) (hparts : ∀ part ∈ parts, c ∉ part) : c ∉ sep.intercalate parts := by
  induction parts with
  | nil => simp [List.intercalate]
  | cons part rest ih =>
      have hpart : c ∉ part := hparts part List.mem_cons_self
      have hrest := ih fun other hother => hparts other (List.mem_cons_of_mem part hother)
      cases rest with
      | nil => simpa [List.intercalate] using hpart
      | cons next more => simpa [List.intercalate, hpart, hsep] using hrest

/-- A traversal that succeeds on every element collects the results. -/
theorem mapM_eq_some_map {α β γ : Type} {f : β → Option γ} {g : α → β} {h : α → γ}
    {items : List α} (hall : ∀ item ∈ items, f (g item) = some (h item)) :
    (items.map g).mapM f = some (items.map h) := by
  induction items with
  | nil => rfl
  | cons item rest ih =>
      simp [List.mapM_cons, hall item List.mem_cons_self,
        ih fun other hother => hall other (List.mem_cons_of_mem item hother)]

end HellohqRuntime.Foundation.Strings
