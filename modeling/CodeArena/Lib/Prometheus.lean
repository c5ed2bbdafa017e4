import Mathlib.Data.List.TakeWhile
import Mathlib.Tactic.Common

/-!
# The Prometheus text format

A reader of the text format: a text is a list of lines, a line is blank, a comment, or a
sample, and a sample is a metric name, labels in braces, a value, and possibly a timestamp.
The value of a label stands between double quotes; in it a double quote, a backslash and a
line feed are written with a backslash, and no other character is.

Next to it stands a printer that does not escape.  What it prints is read back where the
values of the labels are `Plain` (`parseSample_print`).  Where a value is not, it is read as
something shorter, or it runs into what comes after it (`parseQuoted_append`).

## Honest boundary

Values in hexadecimal are not read, and HELP and TYPE lines are comments like any other.
-/

namespace CodeArena.Lib.Prometheus

/-- A value: `coefficient * 10 ^ exponent` where it is a number. -/
inductive Value where
  | nan
  | infinity (negative : Bool)
  | number (negative : Bool) (coefficient : Nat) (exponent : Int)
deriving DecidableEq, Repr

/-- The value of a natural number. -/
def Value.ofNat (n : Nat) : Value := .number false n 0

/-- A label and its value. -/
abbrev Label := List Char × List Char

/-- A sample. -/
structure Sample where
  name : List Char
  labels : List Label
  value : Value
  timestamp : Option Int
deriving DecidableEq, Repr

/-! ## The reader -/

def isBlank (c : Char) : Bool := c = ' ' || c = '\t'

def skipBlanks (cs : List Char) : List Char := cs.dropWhile isBlank

def isLabelStart (c : Char) : Bool := c.isAlpha || c = '_'

def isLabelRest (c : Char) : Bool := c.isAlphanum || c = '_'

def isMetricStart (c : Char) : Bool := isLabelStart c || c = ':'

def isMetricRest (c : Char) : Bool := isLabelRest c || c = ':'

/-- A name, and what comes after it. -/
def parseName (start rest : Char → Bool) : List Char → Option (List Char × List Char)
  | [] => none
  | c :: cs => if start c then some (c :: cs.takeWhile rest, cs.dropWhile rest) else none

/-- What comes after a given character. -/
def expect (c : Char) : List Char → Option (List Char)
  | [] => none
  | d :: cs => if d = c then some cs else none

/-- What stands for a character after a backslash. -/
def unescape (c : Char) : Option Char :=
  if c = 'n' then some '\n' else if c = '"' ∨ c = '\\' then some c else none

/-- The rest of a quoted value, and what comes after the quote that closes it. -/
def parseQuoted : List Char → Option (List Char × List Char)
  | [] => none
  | c :: cs =>
    if c = '"' then some ([], cs)
    else if c = '\\' then
      match cs with
      | [] => none
      | d :: cs => (unescape d).bind fun e ↦ (parseQuoted cs).map fun (v, rest) ↦ (e :: v, rest)
    else (parseQuoted cs).map fun (v, rest) ↦ (c :: v, rest)

/-- A label with its value, and what comes after it. -/
def parseLabel (cs : List Char) : Option (Label × List Char) :=
  (parseName isLabelStart isLabelRest cs).bind fun (name, cs) ↦
    (expect '=' (skipBlanks cs)).bind fun cs ↦
      (expect '"' (skipBlanks cs)).bind fun cs ↦
        (parseQuoted cs).map fun (value, cs) ↦ ((name, value), skipBlanks cs)

/-- The rest of the labels, at most `n` of them, and what comes after the brace that closes
them. -/
def parseLabels : Nat → List Char → Option (List Label × List Char)
  | 0, _ => none
  | n + 1, cs =>
    if cs.head? = some '}' then some ([], skipBlanks cs.tail)
    else (parseLabel cs).bind fun (label, cs) ↦
      match cs with
      | [] => none
      | c :: cs =>
        if c = ',' then
          (parseLabels n (skipBlanks cs)).map fun (labels, cs) ↦ (label :: labels, cs)
        else if c = '}' then some ([label], skipBlanks cs)
        else none

/-- A sign, and what comes after it. -/
def parseSign : List Char → Bool × List Char
  | [] => (false, [])
  | c :: cs => if c = '-' then (true, cs) else if c = '+' then (false, cs) else (false, c :: cs)

/-- A whole number with digits only. -/
def parseDigits (cs : List Char) : Option Nat :=
  if cs ≠ [] ∧ cs.all Char.isDigit then some (Nat.ofDigitChars 10 cs 0) else none

/-- A whole number with or without a sign. -/
def parseInt (cs : List Char) : Option Int :=
  (parseDigits (parseSign cs).2).map fun n ↦ if (parseSign cs).1 then -n else n

/-- An exponent, zero where there is none. -/
def parseExponent : List Char → Option Int
  | [] => some 0
  | c :: cs => if c = 'e' ∨ c = 'E' then parseInt cs else none

/-- The digits behind a point, and what comes after them. -/
def parseFraction : List Char → List Char × List Char
  | [] => ([], [])
  | c :: cs =>
    if c = '.' then (cs.takeWhile Char.isDigit, cs.dropWhile Char.isDigit) else ([], c :: cs)

/-- A number without a sign. -/
def parseNumber (negative : Bool) (cs : List Char) : Option Value :=
  let digits := cs.takeWhile Char.isDigit
  let (fraction, cs) := parseFraction (cs.dropWhile Char.isDigit)
  if digits = [] ∧ fraction = [] then none
  else (parseExponent cs).map fun e ↦
    .number negative (Nat.ofDigitChars 10 (digits ++ fraction) 0) (e - fraction.length)

/-- A value. -/
def parseValue (token : List Char) : Option Value :=
  let (negative, cs) := parseSign token
  if token = "NaN".toList then some .nan
  else if cs = "Inf".toList then some (.infinity negative)
  else parseNumber negative cs

/-- What comes after the value: nothing, or a timestamp. -/
def parseTimestamp (cs : List Char) : Option (Option Int) :=
  if cs = [] then some none
  else if skipBlanks (cs.dropWhile fun c ↦ !isBlank c) = [] then
    (parseInt (cs.takeWhile fun c ↦ !isBlank c)).map some
  else none

/-- The labels, where there are any, and what comes after them. -/
def parseBraces (cs : List Char) : Option (List Label × List Char) :=
  if cs.head? = some '{' then parseLabels cs.length (skipBlanks cs.tail) else some ([], cs)

/-- A sample. -/
def parseSample (cs : List Char) : Option Sample :=
  (parseName isMetricStart isMetricRest cs).bind fun (name, cs) ↦
    (parseBraces (skipBlanks cs)).bind fun (labels, cs) ↦
      (parseValue (cs.takeWhile fun c ↦ !isBlank c)).bind fun value ↦
        (parseTimestamp (skipBlanks (cs.dropWhile fun c ↦ !isBlank c))).map fun timestamp ↦
          ⟨name, labels, value, timestamp⟩

/-- A line: the sample on it, if it is not blank and not a comment. -/
def parseLine (line : List Char) : Option (Option Sample) :=
  match skipBlanks line with
  | [] => some none
  | c :: cs => if c = '#' then some none else (parseSample (c :: cs)).map some

/-- The samples on the lines. -/
def parseLines : List (List Char) → Option (List Sample)
  | [] => some []
  | line :: lines =>
    (parseLine line).bind fun s ↦ (parseLines lines).map fun ss ↦ s.toList ++ ss

/-- The samples of a text. -/
def parseText (text : List Char) : Option (List Sample) := parseLines (text.splitOn '\n')

/-! ## The printer that does not escape -/

/-- A label. -/
def printLabel (label : Label) : List Char := label.1 ++ '=' :: '"' :: label.2 ++ ['"']

/-- Labels with a comma between them. -/
def printLabels : List Label → List Char
  | [] => []
  | [label] => printLabel label
  | label :: labels => printLabel label ++ ',' :: printLabels labels

/-- The line of a sample with labels. -/
def print (name : List Char) (labels : List Label) (value : List Char) : List Char :=
  name ++ '{' :: printLabels labels ++ '}' :: ' ' :: value

/-- A sample as it is going to be printed. -/
structure Item where
  name : List Char
  labels : List Label
  value : List Char

/-- The line of an item. -/
def Item.line (item : Item) : List Char := print item.name item.labels item.value

/-! ## Quoted values -/

/-- The character stands for itself between quotes. -/
def Plain (c : Char) : Prop := c ≠ '"' ∧ c ≠ '\\'

instance (c : Char) : Decidable (Plain c) := inferInstanceAs (Decidable (_ ∧ _))

theorem plain_of_not_mem {v : List Char} (hquote : '"' ∉ v) (hescape : '\\' ∉ v) :
    ∀ c ∈ v, Plain c := by
  intro c hc
  constructor
  · rintro rfl
    exact hquote hc
  · rintro rfl
    exact hescape hc

theorem parseQuoted_quote (cs : List Char) : parseQuoted ('"' :: cs) = some ([], cs) := by
  rw [parseQuoted.eq_def]
  exact if_pos rfl

theorem parseQuoted_cons {c : Char} (hc : Plain c) (cs : List Char) :
    parseQuoted (c :: cs) = (parseQuoted cs).map fun (v, rest) ↦ (c :: v, rest) := by
  rw [parseQuoted.eq_def]
  exact (if_neg hc.1).trans (if_neg hc.2)

theorem parseQuoted_escape (d : Char) (cs : List Char) :
    parseQuoted ('\\' :: d :: cs) =
      (unescape d).bind fun e ↦ (parseQuoted cs).map fun (v, rest) ↦ (e :: v, rest) := by
  rw [parseQuoted.eq_def]
  exact (if_neg (by decide)).trans (if_pos rfl)

/-- **A plain value is read back.** -/
theorem parseQuoted_plain {v : List Char} (hv : ∀ c ∈ v, Plain c) (rest : List Char) :
    parseQuoted (v ++ '"' :: rest) = some (v, rest) := by
  induction v with
  | nil => exact parseQuoted_quote rest
  | cons c v ih =>
      rw [List.cons_append, parseQuoted_cons (hv c List.mem_cons_self),
        ih fun d hd ↦ hv d (List.mem_cons_of_mem _ hd)]
      rfl

/-- What becomes of a value printed between quotes: it is plain and read back, or something
shorter is read, or its last character escapes the quote that closes it. -/
theorem parseQuoted_append (v rest : List Char) {w out : List Char}
    (h : parseQuoted (v ++ '"' :: rest) = some (w, out)) :
    ((∀ c ∈ v, Plain c) ∧ w = v ∧ out = rest) ∨ w.length < v.length ∨
      ∃ u, parseQuoted rest = some (u, out) := by
  induction hn : v.length using Nat.strongRecOn generalizing v w with
  | _ n ih =>
      cases v with
      | nil =>
          rw [List.nil_append, parseQuoted_quote] at h
          cases h
          exact .inl ⟨fun c hc ↦ absurd hc List.not_mem_nil, rfl, rfl⟩
      | cons c v =>
          by_cases hquote : c = '"'
          · subst hquote
            rw [List.cons_append, parseQuoted_quote] at h
            cases h
            exact .inr (.inl (hn ▸ Nat.succ_pos _))
          by_cases hescape : c = '\\'
          · subst hescape
            cases v with
            | nil =>
                rw [List.cons_append, List.nil_append, parseQuoted_escape] at h
                obtain ⟨e, -, h⟩ := Option.bind_eq_some_iff.mp h
                obtain ⟨⟨u, out'⟩, hu, heq⟩ := Option.map_eq_some_iff.mp h
                cases heq
                exact .inr (.inr ⟨u, hu⟩)
            | cons d v =>
                rw [List.cons_append, List.cons_append, parseQuoted_escape] at h
                obtain ⟨e, -, h⟩ := Option.bind_eq_some_iff.mp h
                obtain ⟨⟨u, out'⟩, hu, heq⟩ := Option.map_eq_some_iff.mp h
                cases heq
                have hlen : v.length + 2 = n := hn
                have hlt : v.length < n := Nat.lt_of_lt_of_eq (Nat.lt_add_of_pos_right Nat.two_pos) hlen
                rcases ih v.length hlt v hu rfl with ⟨-, rfl, -⟩ | hshort | hrest
                · exact .inr (.inl (hlen ▸ Nat.lt_succ_self _))
                · exact .inr (.inl (hlen ▸ Nat.succ_lt_succ (Nat.lt_succ_of_lt hshort)))
                · exact .inr (.inr hrest)
          · rw [List.cons_append, parseQuoted_cons ⟨hquote, hescape⟩] at h
            obtain ⟨⟨u, out'⟩, hu, heq⟩ := Option.map_eq_some_iff.mp h
            cases heq
            have hlen : v.length + 1 = n := hn
            have hlt : v.length < n := Nat.lt_of_lt_of_eq (Nat.lt_succ_self _) hlen
            rcases ih v.length hlt v hu rfl with ⟨hplain, rfl, rfl⟩ | hshort | hrest
            · refine .inl ⟨fun d hd ↦ ?_, rfl, rfl⟩
              rcases List.mem_cons.mp hd with rfl | hd
              · exact ⟨hquote, hescape⟩
              · exact hplain d hd
            · exact .inr (.inl (hlen ▸ Nat.succ_lt_succ hshort))
            · exact .inr (.inr hrest)

/-! ## Names -/

/-- A name: one character of the first class, and characters of the second one. -/
def isName (start rest : Char → Bool) : List Char → Bool
  | [] => false
  | c :: cs => start c && cs.all rest

/-- A name is read up to the first character that is not of its class. -/
theorem parseName_append {start rest : Char → Bool} {name cs : List Char}
    (hname : isName start rest name = true) (hcs : ∀ c ∈ cs.head?, rest c = false) :
    parseName start rest (name ++ cs) = some (name, cs) := by
  cases name with
  | nil => cases hname
  | cons c name =>
      obtain ⟨hstart, hrest⟩ := Bool.and_eq_true_iff.mp hname
      have hall := List.all_eq_true.mp hrest
      rw [List.cons_append, parseName, if_pos hstart, List.takeWhile_append_of_pos hall,
        List.dropWhile_append_of_pos hall]
      cases cs with
      | nil => simp
      | cons d cs =>
          have hd := hcs d rfl
          rw [List.takeWhile_cons_of_neg (by rw [hd]; decide),
            List.dropWhile_cons_of_neg (by rw [hd]; decide), List.append_nil]

/-- A character of neither class is in no name. -/
theorem not_mem_of_isName {start rest : Char → Bool} {name : List Char} {a : Char}
    (hstart : start a = false) (hrest : rest a = false) (hname : isName start rest name = true) :
    a ∉ name := by
  cases name with
  | nil => exact List.not_mem_nil
  | cons c name =>
      obtain ⟨hc, hall⟩ := Bool.and_eq_true_iff.mp hname
      intro ha
      rcases List.mem_cons.mp ha with rfl | ha
      · exact absurd (hc.symm.trans hstart) nofun
      · exact absurd ((List.all_eq_true.mp hall a ha).symm.trans hrest) nofun

theorem skipBlanks_cons {c : Char} (hc : isBlank c = false) (cs : List Char) :
    skipBlanks (c :: cs) = c :: cs :=
  List.dropWhile_cons_of_neg (by rw [hc]; decide)

/-- A character of a class without blanks is no blank. -/
theorem isBlank_eq_false {p : Char → Bool} (hspace : p ' ' = false) (htab : p '\t' = false)
    {c : Char} (hc : p c = true) : isBlank c = false := by
  have hne {d : Char} (hd : p d = false) : c ≠ d := by
    rintro rfl
    exact absurd (hc.symm.trans hd) nofun
  simp [isBlank, hne hspace, hne htab]

/-! ## Labels -/

/-- What a label printed in front of `rest` is read as is decided at the quote. -/
theorem parseLabel_print {label : Label} {rest : List Char}
    (hname : isName isLabelStart isLabelRest label.1 = true) :
    parseLabel (printLabel label ++ rest) = (parseQuoted (label.2 ++ '"' :: rest)).map
      fun (value, cs) ↦ ((label.1, value), skipBlanks cs) := by
  have htext : printLabel label ++ rest = label.1 ++ '=' :: '"' :: (label.2 ++ '"' :: rest) := by
    simp [printLabel]
  rw [htext, parseLabel, parseName_append hname (by simp [isLabelRest])]
  rfl

/-- The label has a name, and a plain value. -/
def Printable (label : Label) : Prop :=
  isName isLabelStart isLabelRest label.1 = true ∧ ∀ c ∈ label.2, Plain c

theorem parseLabel_plain {label : Label} (h : Printable label) (rest : List Char) :
    parseLabel (printLabel label ++ rest) = some (label, skipBlanks rest) := by
  rw [parseLabel_print h.1, parseQuoted_plain h.2]
  rfl

/-- A printed label starts neither with a blank nor with a brace. -/
theorem head_printLabel {label : Label} (hname : isName isLabelStart isLabelRest label.1 = true)
    (rest : List Char) :
    ∃ c cs, printLabel label ++ rest = c :: cs ∧ isBlank c = false ∧ c ≠ '}' := by
  obtain ⟨name, value⟩ := label
  cases name with
  | nil => cases hname
  | cons c name =>
      have hstart : isLabelStart c = true := (Bool.and_eq_true_iff.mp hname).1
      refine ⟨c, _, rfl, isBlank_eq_false (by decide) (by decide) hstart, ?_⟩
      rintro rfl
      exact absurd hstart (by decide)

theorem skipBlanks_printLabel {label : Label}
    (hname : isName isLabelStart isLabelRest label.1 = true) (rest : List Char) :
    skipBlanks (printLabel label ++ rest) = printLabel label ++ rest := by
  obtain ⟨c, cs, htext, hblank, -⟩ := head_printLabel hname rest
  rw [htext, skipBlanks_cons hblank]

/-- The next label, and what comes after it. -/
theorem parseLabels_printLabel {label : Label} {rest : List Char} (n : Nat)
    (hname : isName isLabelStart isLabelRest label.1 = true) :
    parseLabels (n + 1) (printLabel label ++ rest) =
      (parseLabel (printLabel label ++ rest)).bind fun (label, cs) ↦
        match cs with
        | [] => none
        | c :: cs =>
          if c = ',' then
            (parseLabels n (skipBlanks cs)).map fun (labels, cs) ↦ (label :: labels, cs)
          else if c = '}' then some ([label], skipBlanks cs)
          else none := by
  obtain ⟨c, cs, htext, -, hbrace⟩ := head_printLabel hname rest
  rw [parseLabels]
  apply if_neg
  rw [htext]
  exact fun h ↦ hbrace (Option.some.inj h)

/-- A plain label in front of others. -/
theorem parseLabels_cons {label : Label} {rest : List Char} (n : Nat) (h : Printable label) :
    parseLabels (n + 1) (printLabel label ++ ',' :: rest) =
      (parseLabels n (skipBlanks rest)).map fun (labels, cs) ↦ (label :: labels, cs) := by
  rw [parseLabels_printLabel n h.1, parseLabel_plain h]
  rfl

theorem printLabels_cons (label : Label) {labels : List Label} (hne : labels ≠ []) :
    printLabels (label :: labels) = printLabel label ++ ',' :: printLabels labels := by
  cases labels with
  | nil => exact absurd rfl hne
  | cons next labels => rfl

theorem skipBlanks_printLabels {labels : List Label} (hne : labels ≠ [])
    (h : ∀ label ∈ labels, isName isLabelStart isLabelRest label.1 = true) (rest : List Char) :
    skipBlanks (printLabels labels ++ rest) = printLabels labels ++ rest := by
  cases labels with
  | nil => exact absurd rfl hne
  | cons label labels =>
      have hlabel := h label List.mem_cons_self
      cases labels with
      | nil => exact skipBlanks_printLabel hlabel rest
      | cons next labels =>
          rw [printLabels_cons label (List.cons_ne_nil _ _), List.append_assoc]
          exact skipBlanks_printLabel hlabel _

/-- **Plain labels are read back.** -/
theorem parseLabels_print {labels : List Label} (hne : labels ≠ [])
    (h : ∀ label ∈ labels, Printable label) (rest : List Char) :
    ∀ n, labels.length ≤ n →
      parseLabels n (printLabels labels ++ '}' :: rest) = some (labels, skipBlanks rest) := by
  induction labels with
  | nil => exact absurd rfl hne
  | cons label labels ih =>
      intro n hn
      obtain ⟨n, rfl⟩ : ∃ m, n = m + 1 :=
        Nat.exists_eq_succ_of_ne_zero (Nat.ne_of_gt (Nat.lt_of_lt_of_le (Nat.succ_pos _) hn))
      have hlabel := h label List.mem_cons_self
      cases labels with
      | nil =>
          show parseLabels (n + 1) (printLabel label ++ '}' :: rest) = _
          rw [parseLabels_printLabel n hlabel.1, parseLabel_plain hlabel]
          rfl
      | cons next labels =>
          have hrest : ∀ l ∈ next :: labels, Printable l := fun l hl ↦ h l (List.mem_cons_of_mem _ hl)
          have htext : printLabels (label :: next :: labels) ++ '}' :: rest =
              printLabel label ++ ',' :: (printLabels (next :: labels) ++ '}' :: rest) := by
            rw [printLabels_cons label (List.cons_ne_nil _ _), List.append_assoc, List.cons_append]
          rw [htext, parseLabels_cons n hlabel,
            skipBlanks_printLabels (List.cons_ne_nil _ _) fun l hl ↦ (hrest l hl).1,
            ih (List.cons_ne_nil _ _) hrest n (Nat.le_of_succ_le_succ hn)]
          rfl

/-- The characters of a name are plain. -/
theorem plain_of_isName {name : List Char} (hname : isName isLabelStart isLabelRest name = true) :
    ∀ c ∈ name, Plain c :=
  plain_of_not_mem (not_mem_of_isName (by decide) (by decide) hname)
    (not_mem_of_isName (by decide) (by decide) hname)

/-- The first label that is read has the name of the printed one, and a comma or a brace comes
after it. -/
theorem parseLabels_printLabel_inv {label : Label} {labels : List Label} {rest out : List Char}
    {n : Nat} (hname : isName isLabelStart isLabelRest label.1 = true)
    (h : parseLabels (n + 1) (printLabel label ++ rest) = some (labels, out)) :
    ∃ w tail more, parseQuoted (label.2 ++ '"' :: rest) = some (w, tail) ∧
      labels = (label.1, w) :: more ∧ ∃ c cs, skipBlanks tail = c :: cs ∧ (c = ',' ∨ c = '}') := by
  rw [parseLabels_printLabel n hname, parseLabel_print hname] at h
  obtain ⟨⟨first, cs⟩, hfirst, h⟩ := Option.bind_eq_some_iff.mp h
  obtain ⟨⟨w, tail⟩, hw, heq⟩ := Option.map_eq_some_iff.mp hfirst
  cases heq
  cases hskip : skipBlanks tail with
  | nil =>
      simp only [hskip] at h
      cases h
  | cons c cs =>
      simp only [hskip] at h
      split at h
      case isTrue hc =>
        obtain ⟨⟨more, _⟩, -, heq⟩ := Option.map_eq_some_iff.mp h
        cases heq
        exact ⟨w, tail, more, hw, rfl, c, cs, hskip, .inl hc⟩
      case isFalse =>
        split at h
        case isTrue hc =>
          cases h
          exact ⟨w, tail, [], hw, rfl, c, cs, hskip, .inr hc⟩
        case isFalse => cases h

/-- A value that runs into the next label ends at the quote that opens the next value. -/
theorem parseQuoted_printLabel {label : Label} (hname : isName isLabelStart isLabelRest label.1 = true)
    (rest : List Char) : parseQuoted (',' :: (printLabel label ++ rest)) =
      some (',' :: label.1 ++ ['='], label.2 ++ '"' :: rest) := by
  have htext : ',' :: (printLabel label ++ rest) =
      (',' :: label.1 ++ ['=']) ++ '"' :: (label.2 ++ '"' :: rest) := by
    simp [printLabel]
  rw [htext]
  apply parseQuoted_plain
  intro c hc
  rcases List.mem_append.mp hc with hc | hc
  · rcases List.mem_cons.mp hc with rfl | hc
    · decide
    · exact plain_of_isName hname c hc
  · rw [List.mem_singleton.mp hc]
    decide

/-- The second of three labels, where the first is plain and the third starts with a digit:
its value is read back, or something shorter is. -/
theorem parseLabels_second {first second third : Label} {labels : List Label}
    {rest out : List Char} {n : Nat} (hfirst : Printable first)
    (hsecond : isName isLabelStart isLabelRest second.1 = true)
    (hthird : isName isLabelStart isLabelRest third.1 = true)
    (hdigit : ∃ d ∈ third.2.head?, d.isDigit = true)
    (h : parseLabels n (printLabels [first, second, third] ++ '}' :: rest) = some (labels, out)) :
    ∃ w more, labels = first :: (second.1, w) :: more ∧
      (((∀ c ∈ second.2, Plain c) ∧ w = second.2) ∨ w.length < second.2.length) := by
  have htext : printLabels [first, second, third] ++ '}' :: rest = printLabel first ++ ',' ::
      (printLabel second ++ ',' :: (printLabel third ++ '}' :: rest)) := by
    simp [printLabels]
  rw [htext] at h
  cases n with
  | zero => cases h
  | succ n =>
      rw [parseLabels_cons n hfirst, skipBlanks_printLabel hsecond] at h
      obtain ⟨⟨labels', out'⟩, h, heq⟩ := Option.map_eq_some_iff.mp h
      cases heq
      cases n with
      | zero => cases h
      | succ n =>
          obtain ⟨w, tail, more, hw, rfl, c, cs, hskip, hc⟩ := parseLabels_printLabel_inv hsecond h
          refine ⟨w, more, rfl, ?_⟩
          rcases parseQuoted_append second.2 _ hw with ⟨hplain, heq, -⟩ | hshort | ⟨u, hu⟩
          · exact .inl ⟨hplain, heq⟩
          · exact .inr hshort
          · -- the quote was escaped, so the value ends where that of the third label starts
            rw [parseQuoted_printLabel hthird] at hu
            obtain ⟨-, rfl⟩ := Prod.mk.inj (Option.some.inj hu)
            obtain ⟨d, hd, hdigit⟩ := hdigit
            obtain ⟨ds, hds⟩ : ∃ ds, third.2 = d :: ds := List.head?_eq_some_iff.mp hd
            have hblank : isBlank d = false := isBlank_eq_false (by decide) (by decide) hdigit
            rw [hds, List.cons_append, skipBlanks_cons hblank] at hskip
            obtain ⟨rfl, -⟩ := List.cons.inj hskip
            rcases hc with rfl | rfl
            · exact absurd hdigit (by decide)
            · exact absurd hdigit (by decide)

/-! ## Samples -/

theorem parseBraces_brace (cs : List Char) :
    parseBraces ('{' :: cs) = parseLabels (cs.length + 1) (skipBlanks cs) := if_pos rfl

/-- A printed sample, up to its labels. -/
theorem parseSample_eq {name : List Char} (hname : isName isMetricStart isMetricRest name = true)
    (labels : List Label) (value : List Char) :
    parseSample (print name labels value) =
      (parseLabels ((printLabels labels ++ '}' :: ' ' :: value).length + 1)
        (skipBlanks (printLabels labels ++ '}' :: ' ' :: value))).bind fun (labels, cs) ↦
        (parseValue (cs.takeWhile fun c ↦ !isBlank c)).bind fun value ↦
          (parseTimestamp (skipBlanks (cs.dropWhile fun c ↦ !isBlank c))).map fun timestamp ↦
            ⟨name, labels, value, timestamp⟩ := by
  have htext : print name labels value =
      name ++ '{' :: (printLabels labels ++ '}' :: ' ' :: value) := by
    simp [print]
  have hhead : ∀ c ∈ ('{' :: (printLabels labels ++ '}' :: ' ' :: value)).head?,
      isMetricRest c = false := by
    rintro _ ⟨⟩
    decide
  rw [htext, parseSample, parseName_append hname hhead, Option.bind_some]
  dsimp only
  rw [skipBlanks_cons (by decide), parseBraces_brace]

/-- What is read of a printed sample has its name, and labels read from its labels. -/
theorem parseSample_inv {name : List Char} {labels : List Label} {value : List Char} {s : Sample}
    (hname : isName isMetricStart isMetricRest name = true)
    (h : parseSample (print name labels value) = some s) :
    s.name = name ∧ ∃ n out, parseLabels n
      (skipBlanks (printLabels labels ++ '}' :: ' ' :: value)) = some (s.labels, out) := by
  rw [parseSample_eq hname] at h
  obtain ⟨⟨labels', out⟩, hlabels, h⟩ := Option.bind_eq_some_iff.mp h
  obtain ⟨v, -, h⟩ := Option.bind_eq_some_iff.mp h
  obtain ⟨t, -, rfl⟩ := Option.map_eq_some_iff.mp h
  exact ⟨rfl, _, out, hlabels⟩

theorem length_le_printLabels (labels : List Label) :
    labels.length ≤ (printLabels labels).length := by
  induction labels with
  | nil => exact Nat.le_refl 0
  | cons label labels ih =>
      cases labels with
      | nil => exact List.length_pos_iff.mpr (by simp [printLabels, printLabel])
      | cons next labels =>
          rw [printLabels_cons label (List.cons_ne_nil _ _), List.length_append, List.length_cons,
            List.length_cons]
          exact Nat.le_trans (Nat.succ_le_succ ih) (Nat.le_add_left _ _)

/-- **A sample with plain labels is read back.** -/
theorem parseSample_print {name : List Char} {labels : List Label} {value : List Char} {v : Value}
    (hname : isName isMetricStart isMetricRest name = true) (hne : labels ≠ [])
    (hlabels : ∀ label ∈ labels, Printable label) (hblank : ∀ c ∈ value, isBlank c = false)
    (hv : parseValue value = some v) :
    parseSample (print name labels value) = some ⟨name, labels, v, none⟩ := by
  have hfuel : labels.length ≤ (printLabels labels ++ '}' :: ' ' :: value).length + 1 := by
    rw [List.length_append]
    exact Nat.le_succ_of_le (Nat.le_trans (length_le_printLabels labels) (Nat.le_add_right _ _))
  have hskip : skipBlanks (' ' :: value) = value := by
    show skipBlanks value = value
    cases value with
    | nil => rfl
    | cons c value => exact skipBlanks_cons (hblank c List.mem_cons_self) value
  have hall : ∀ c ∈ value, (!isBlank c) = true := by
    intro c hc
    rw [hblank c hc]
    rfl
  rw [parseSample_eq hname, skipBlanks_printLabels hne fun label hl ↦ (hlabels label hl).1,
    parseLabels_print hne hlabels _ _ hfuel, Option.bind_some]
  dsimp only
  rw [hskip, List.takeWhile_eq_self_iff.mpr hall, List.dropWhile_eq_nil_iff.mpr hall, hv]
  rfl

/-- The line of a sample is neither blank nor a comment. -/
theorem parseLine_print {name : List Char} (hname : isName isMetricStart isMetricRest name = true)
    (labels : List Label) (value : List Char) :
    parseLine (print name labels value) = (parseSample (print name labels value)).map some := by
  cases name with
  | nil => cases hname
  | cons c name =>
      have hstart : isMetricStart c = true := (Bool.and_eq_true_iff.mp hname).1
      have hblank : isBlank c = false := isBlank_eq_false (by decide) (by decide) hstart
      have hcomment : c ≠ '#' := by
        rintro rfl
        exact absurd hstart (by decide)
      show parseLine (c :: (name ++ _ ++ _)) = _
      rw [parseLine, skipBlanks_cons hblank]
      exact if_neg hcomment

/-! ## Values -/

/-- What starts with a digit is a number without a sign. -/
theorem parseValue_of_digit {d : Char} (hd : d.isDigit = true) (cs : List Char) :
    parseValue (d :: cs) = parseNumber false (d :: cs) := by
  have hne {e : Char} (he : e.isDigit = false) : d ≠ e := by
    rintro rfl
    exact absurd (hd.symm.trans he) nofun
  have hsign : parseSign (d :: cs) = (false, d :: cs) := by
    rw [parseSign, if_neg (hne (by decide)), if_neg (hne (by decide))]
  have hnan : d :: cs ≠ "NaN".toList := fun h ↦ hne (e := 'N') (by decide) (List.cons.inj h).1
  have hinf : d :: cs ≠ "Inf".toList := fun h ↦ hne (e := 'I') (by decide) (List.cons.inj h).1
  rw [parseValue, hsign]
  dsimp only
  rw [if_neg hnan, if_neg hinf]

/-- **A whole number is read back.** -/
theorem parseValue_digits {ds : List Char} (hne : ds ≠ []) (hds : ∀ d ∈ ds, d.isDigit = true) :
    parseValue ds = some (.ofNat (Nat.ofDigitChars 10 ds 0)) := by
  obtain ⟨d, cs, rfl⟩ := List.exists_cons_of_ne_nil hne
  rw [parseValue_of_digit (hds d List.mem_cons_self), parseNumber,
    List.takeWhile_eq_self_iff.mpr hds, List.dropWhile_eq_nil_iff.mpr hds]
  simp [parseFraction, parseExponent, Value.ofNat]

/-- A number with digits behind a point is read back. -/
theorem parseValue_point {ds fs : List Char} (hne : ds ≠ []) (hds : ∀ d ∈ ds, d.isDigit = true)
    (hfs : ∀ d ∈ fs, d.isDigit = true) :
    parseValue (ds ++ '.' :: fs) =
      some (.number false (Nat.ofDigitChars 10 (ds ++ fs) 0) (-fs.length)) := by
  obtain ⟨d, cs, rfl⟩ := List.exists_cons_of_ne_nil hne
  have hpoint : (List.takeWhile Char.isDigit ('.' :: fs)) = [] := rfl
  have hpoint' : (List.dropWhile Char.isDigit ('.' :: fs)) = '.' :: fs := rfl
  rw [List.cons_append, parseValue_of_digit (hds d List.mem_cons_self), ← List.cons_append,
    parseNumber, List.takeWhile_append_of_pos hds, List.dropWhile_append_of_pos hds, hpoint,
    hpoint', parseFraction, if_pos rfl, List.takeWhile_eq_self_iff.mpr hfs,
    List.dropWhile_eq_nil_iff.mpr hfs]
  simp [parseExponent]

end CodeArena.Lib.Prometheus
