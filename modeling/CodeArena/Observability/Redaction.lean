import CodeArena.Lib.Json
import CodeArena.Lib.Tree
import CodeArena.Submissions.Model

/-!
# Redaction of the log

`redact` of `logger.js` hides what stands under sensitive keys before `writeLog` prints the
metadata of an event.  It counts levels on its way down, through objects and arrays alike, and
returns what lies below the sixth as it is: so the log depends on no sensitive value exactly if
no sensitive key lies there (`redact_noninterfering_iff`).

## Honest boundary

Metadata are finite trees of arrays and of objects that have their own enumerable fields only,
without functions: the text of an object is the one that every object has.  An object keeps its
fields in the order of `Object.entries`.  A field `__proto__` sets the prototype of the copy;
here the copy has it as a field.
-/

namespace CodeArena.Observability

open CodeArena.Lib CodeArena.Lib.Utf
open CodeArena.Submissions (JsError)

/-- A value that is neither an object nor an array. -/
inductive Primitive where
  | undefined
  | null
  | bool (b : Bool)
  | number (n : Number)
  | bigint (n : Int)
  | string (s : JsString)

/-- Metadata of an event. -/
abbrev Meta := Tree JsString Primitive

/-- `SENSITIVE_KEYS`. -/
def sensitiveKeys : List JsString :=
  [js "password", js "passwordhash", js "token", js "jwt", js "secret", js "authorization",
    js "sourcecode", js "input", js "expectedoutput"]

/-- One code unit of `toLowerCase`: besides A to Z, the Kelvin sign has a small letter from a
to z. -/
def lowerUnit (u : CodeUnit) : CodeUnit :=
  if 0x41 ≤ u ∧ u ≤ 0x5A then u + 0x20
  else if u = 0x212A then 0x6B
  else u

/-- `toLowerCase`, as far as the letters from a to z go. -/
def toLowerCase (s : JsString) : JsString := s.map lowerUnit

/-- `SENSITIVE_KEYS.has(lowerKey)`. -/
def isSensitive (key : JsString) : Bool := sensitiveKeys.any (· = toLowerCase key)

/-- `'[REDACTED]'`. -/
def redacted : Primitive := .string (js "[REDACTED]")

/-- `typeof value === 'object'`. -/
def isObject : Meta → Bool
  | .leaf .null => true
  | .leaf _ => false
  | _ => true

mutual

/-- `redact`. -/
def redact (depth : Nat) : Meta → Meta
  | .leaf p => .leaf p
  | .list items => if depth > 5 then .list items else .list (redactItems (depth + 1) items)
  | .record entries =>
    if depth > 5 then .record entries else .record (redactEntries (depth + 1) entries)

/-- `obj.map((item) => redact(item, depth))`. -/
def redactItems (depth : Nat) : List Meta → List Meta
  | [] => []
  | item :: items => redact depth item :: redactItems depth items

/-- The loop over the entries. -/
def redactEntries (depth : Nat) : List (JsString × Meta) → List (JsString × Meta)
  | [] => []
  | (key, value) :: entries =>
    (key, if isSensitive key then .leaf redacted
      else if isObject value then redact depth value
      else value) :: redactEntries depth entries

end

/-! ## `redact` is a mask -/

theorem redactItems_eq_map (depth : Nat) (items : List Meta) :
    redactItems depth items = items.map (redact depth) := by
  induction items with
  | nil => rfl
  | cons item items ih => rw [redactItems, List.map_cons, ih]

/-- What is no object is returned as it is. -/
theorem redact_of_not_isObject {depth : Nat} {value : Meta} (h : isObject value = false) :
    redact depth value = value := by
  cases value with
  | leaf p => rfl
  | list items => cases h
  | record entries => cases h

theorem redactEntries_eq_map (depth : Nat) (entries : List (JsString × Meta)) :
    redactEntries depth entries = entries.map fun e ↦
      (e.1, if isSensitive e.1 then .leaf redacted else redact depth e.2) := by
  induction entries with
  | nil => rfl
  | cons e entries ih =>
      obtain ⟨key, value⟩ := e
      have hvalue : (if isObject value then redact depth value else value) =
          redact depth value := by
        cases h : isObject value with
        | true => rfl
        | false => exact (redact_of_not_isObject h).symm
      rw [redactEntries, List.map_cons, ih, hvalue]

/-- **`redact` masks six levels.** -/
theorem redact_eq_mask (depth : Nat) (m : Meta) :
    redact depth m = Tree.mask isSensitive redacted (6 - depth) m := by
  induction m using Tree.ind generalizing depth with
  | leaf p => exact (Tree.mask_leaf p).symm
  | list items ih =>
      rw [redact]
      split
      · rename_i hdepth
        rw [Nat.sub_eq_zero_of_le hdepth, Tree.mask_zero]
      · rw [Tree.mask_list, redactItems_eq_map]
        exact congrArg Tree.list (List.map_congr_left fun item hitem ↦ ih item hitem (depth + 1))
  | record entries ih =>
      rw [redact]
      split
      · rename_i hdepth
        rw [Nat.sub_eq_zero_of_le hdepth, Tree.mask_zero]
      · rename_i hdepth
        have hpos : 0 < 6 - depth := Nat.sub_pos_of_lt (Nat.lt_succ_of_le (Nat.not_lt.mp hdepth))
        rw [Tree.mask_record, redactEntries_eq_map]
        refine congrArg Tree.record (List.map_congr_left fun e he ↦ ?_)
        cases hkey : isSensitive e.1 with
        | true => exact (Tree.maskEntry_of_secret hpos hkey e.2).symm
        | false =>
            have hnot : ¬ (0 < 6 - depth ∧ isSensitive e.1 = true) := by simp [hkey]
            exact (congrArg (Prod.mk e.1) (ih e he (depth + 1))).trans
              (Tree.maskEntry_of_not hnot e.2).symm

/-! ## `writeLog` -/

/-- What the log is printed with. -/
structure Printer where
  /-- `new Date().toISOString()`. -/
  timestamp : JsString
  /-- `JSON.stringify`, which throws for a `bigint`. -/
  stringify : Meta → Except JsError JsString
  /-- `String(n)`. -/
  numberText : Number → JsString

/-- The settings that are read at the start. -/
structure LogSettings where
  isTest : Bool
  isProduction : Bool
  /-- `CURRENT_LEVEL`. -/
  currentLevel : Nat

/-- A level of the log. -/
inductive LogLevel where
  | debug
  | info
  | warn
  | error
deriving DecidableEq, Repr

namespace LogLevel

/-- `LOG_LEVELS`. -/
def number : LogLevel → Nat
  | debug => 10
  | info => 20
  | warn => 30
  | error => 40

/-- The name of a level. -/
def name : LogLevel → JsString
  | debug => js "debug"
  | info => js "info"
  | warn => js "warn"
  | error => js "error"

/-- `level.toUpperCase()`. -/
def upperName : LogLevel → JsString
  | debug => js "DEBUG"
  | info => js "INFO"
  | warn => js "WARN"
  | error => js "ERROR"

/-- `color`. -/
def color : LogLevel → JsString
  | error => js "\x1b[31m"
  | warn => js "\x1b[33m"
  | info => js "\x1b[36m"
  | debug => js "\x1b[90m"

end LogLevel

/-- A value as a condition. -/
def truthy : Meta → Bool
  | .leaf .undefined | .leaf .null => false
  | .leaf (.bool b) => b
  | .leaf (.number n) => n ≠ 0
  | .leaf (.bigint n) => n ≠ 0
  | .leaf (.string s) => s ≠ []
  | _ => true

/-- `String(p)`. -/
def Primitive.text (printer : Printer) : Primitive → JsString
  | undefined => js "undefined"
  | null => js "null"
  | bool b => js (toString b)
  | number n => printer.numberText n
  | bigint n => js (toString n)
  | string s => s

/-- A value that `join` leaves out. -/
def isNullish : Meta → Bool
  | .leaf .undefined | .leaf .null => true
  | _ => false

mutual

/-- `String(value)`: what an object has is not in it. -/
def text (printer : Printer) : Meta → JsString
  | .leaf p => p.text printer
  | .list items => [0x2C].intercalate (itemTexts printer items)
  | .record _ => js "[object Object]"

/-- The texts that `join` joins. -/
def itemTexts (printer : Printer) : List Meta → List JsString
  | [] => []
  | item :: items =>
    (if isNullish item then [] else text printer item) :: itemTexts printer items

end

/-- The fields that `...value` copies. -/
def spread : Meta → List (JsString × Meta)
  | .leaf (.string s) => s.mapIdx fun i u ↦ (js (toString i), .leaf (.string [u]))
  | .leaf _ => []
  | .list items => items.mapIdx fun i item ↦ (js (toString i), item)
  | .record entries => entries

/-- `meta.requestId`; `none` where it is undefined. -/
def requestId : Meta → Option Meta
  | .record entries => OrderedMap.find? (js "requestId") entries
  | _ => none

/-- `reqStr`. -/
def reqStr (printer : Printer) (value : Option Meta) : JsString :=
  match value with
  | none => []
  | some id => if truthy id then js " [" ++ text printer id ++ js "]" else []

/-- `TypeError`, thrown where a field of null is read. -/
def readOfNull : JsError :=
  ⟨"TypeError", "Cannot read properties of null (reading 'requestId')", none, none, false⟩

/-- `meta = {}`. -/
def orEmpty : Meta → Meta
  | .leaf .undefined => .record []
  | m => m

/-- The line of an event in production. -/
def productionLine (printer : Printer) (level : LogLevel) (message : JsString)
    (sanitizedMeta : Meta) : Except JsError JsString := do
  let entry := Entries.assign ((spread sanitizedMeta).map fun e ↦ (e.1, some e.2))
    [(js "timestamp", .leaf (.string printer.timestamp)),
      (js "level", .leaf (.string level.name)), (js "message", .leaf (.string message))]
  let line ← printer.stringify (.record entry)
  return line ++ js "\n"

/-- The line of an event elsewhere. -/
def developmentLine (printer : Printer) (level : LogLevel) (message reqStr : JsString)
    (sanitizedMeta : Meta) : Except JsError JsString := do
  let metaStr ← if 0 < (spread sanitizedMeta).length then
      (printer.stringify sanitizedMeta).map (js " " ++ ·)
    else .ok []
  return level.color ++ js "[" ++ printer.timestamp ++ js "] [" ++ level.upperName ++ js "]" ++
    reqStr ++ js "\x1b[0m " ++ message ++ metaStr ++ js "\n"

/-- `writeLog`: the line that is written, if any. -/
def writeLog (printer : Printer) (settings : LogSettings) (level : LogLevel) (message : JsString)
    (metadata : Meta) : Except JsError (Option JsString) :=
  if settings.isTest then .ok none
  else if level.number < settings.currentLevel then .ok none
  else
    let sanitizedMeta := redact 0 (orEmpty metadata)
    if settings.isProduction then
      (productionLine printer level message sanitizedMeta).map some
    else match orEmpty metadata with
      | .leaf .null => .error readOfNull
      | m =>
        (developmentLine printer level message (reqStr printer (requestId m)) sanitizedMeta).map some

/-! ## Alike metadata are printed alike -/

section

variable {printer : Printer} {m m' : Meta}

theorem itemTexts_eq_map (items : List Meta) :
    itemTexts printer items =
      items.map fun item ↦ if isNullish item then [] else text printer item := by
  induction items with
  | nil => rfl
  | cons item items ih => rw [itemTexts, List.map_cons, ih]

theorem isNullish_eq (h : Tree.Alike isSensitive m m') : isNullish m = isNullish m' := by
  cases h with
  | leaf p => rfl
  | list _ => rfl
  | record _ => rfl

theorem truthy_eq (h : Tree.Alike isSensitive m m') : truthy m = truthy m' := by
  cases h with
  | leaf p => rfl
  | list _ => rfl
  | record _ => rfl

/-- The text of a value has no field of an object in it. -/
theorem text_eq (h : Tree.Alike isSensitive m m') : text printer m = text printer m' := by
  induction m using Tree.ind generalizing m' with
  | leaf p =>
      cases h
      rfl
  | record entries _ =>
      cases h
      rfl
  | list items ih =>
      obtain _ | hitems := h
      refine congrArg ([0x2C].intercalate) ?_
      rw [itemTexts_eq_map, itemTexts_eq_map]
      refine map_eq_of_related_mem hitems fun item hitem item' halike ↦ ?_
      rw [isNullish_eq halike, ih item hitem halike]

theorem reqStr_eq {value value' : Option Meta}
    (h : Option.Rel (Tree.Alike isSensitive) value value') :
    reqStr printer value = reqStr printer value' := by
  cases h with
  | none => rfl
  | some hid => rw [reqStr, reqStr, truthy_eq hid, text_eq hid]

/-- `requestId` is not sensitive. -/
theorem requestId_alike (h : Tree.Alike isSensitive m m') :
    Option.Rel (Tree.Alike isSensitive) (requestId m) (requestId m') := by
  cases h with
  | leaf p => exact .none
  | list _ => exact .none
  | record hentries => exact Tree.find?_alike hentries (by decide +kernel)

/-- The line for an object or an array. -/
theorem writeLog_of_not_leaf (hm : ∀ p, m ≠ .leaf p) (settings : LogSettings) (level : LogLevel)
    (message : JsString) :
    writeLog printer settings level message m =
      if settings.isTest then .ok none
      else if level.number < settings.currentLevel then .ok none
      else if settings.isProduction then
        (productionLine printer level message (redact 0 m)).map some
      else
        (developmentLine printer level message (reqStr printer (requestId m)) (redact 0 m)).map
          some := by
  cases m with
  | leaf p => exact absurd rfl (hm p)
  | list items => rfl
  | record entries => rfl

/-- What is redacted alike is printed alike. -/
theorem writeLog_eq (h : Tree.Alike isSensitive m m') (hredact : redact 0 m = redact 0 m')
    (settings : LogSettings) (level : LogLevel) (message : JsString) :
    writeLog printer settings level message m = writeLog printer settings level message m' := by
  have hreq : reqStr printer (requestId m) = reqStr printer (requestId m') :=
    reqStr_eq (requestId_alike h)
  cases h with
  | leaf p => rfl
  | @list ts us _ =>
      rw [writeLog_of_not_leaf (m := .list ts) nofun, writeLog_of_not_leaf (m := .list us) nofun,
        hredact, hreq]
  | @record es fs _ =>
      rw [writeLog_of_not_leaf (m := .record es) nofun,
        writeLog_of_not_leaf (m := .record fs) nofun, hredact, hreq]

end

/-- **Where redaction is noninterfering**: what `redact` returns for metadata, and every line that
is printed of them, is the same for all metadata that differ in sensitive values only, exactly if
no sensitive key that is reached lies below the sixth level. -/
theorem redact_noninterfering_iff (m : Meta) :
    (∀ m', Tree.Alike isSensitive m m' → redact 0 m' = redact 0 m ∧
      ∀ (printer : Printer) (settings : LogSettings) (level : LogLevel) (message : JsString),
        writeLog printer settings level message m' = writeLog printer settings level message m) ↔
      ∀ depth, Tree.Exposes isSensitive depth m → depth ≤ 5 := by
  constructor
  · intro h
    have hmask : ∀ m', Tree.Alike isSensitive m m' →
        Tree.mask isSensitive redacted 6 m' = Tree.mask isSensitive redacted 6 m := by
      intro m' halike
      rw [← redact_eq_mask 0, ← redact_eq_mask 0]
      exact (h m' halike).1
    exact fun depth hdepth ↦ Nat.le_of_lt_succ (Tree.mask_alike_iff.mp hmask depth hdepth)
  · intro h m' halike
    have hredact : redact 0 m = redact 0 m' := by
      rw [redact_eq_mask, redact_eq_mask]
      exact halike.mask_eq fun depth hdepth ↦ Nat.lt_succ_of_le (h depth hdepth)
    exact ⟨hredact.symm, fun printer settings level message ↦
      (writeLog_eq halike hredact settings level message).symm⟩

/-- Metadata with a password so many objects deep. -/
def nested (password : JsString) : Nat → Meta
  | 0 => .record [(js "password", .leaf (.string password))]
  | n + 1 => .record [(js "error", nested password n)]

theorem nested_alike (p q : JsString) (n : Nat) :
    Tree.Alike isSensitive (nested p n) (nested q n) := by
  induction n with
  | zero => exact .record (.cons (.secret _ _ (by decide +kernel)) .nil)
  | succ n ih => exact .record (.cons (.open ih) .nil)

/-- **A password in the seventh level** is in the log. -/
theorem deep_password_printed :
    Tree.Alike isSensitive (nested (js "a") 6) (nested (js "b") 6) ∧
      redact 0 (nested (js "a") 6) = nested (js "a") 6 ∧
      redact 0 (nested (js "b") 6) ≠ redact 0 (nested (js "a") 6) := by
  refine ⟨nested_alike _ _ 6, rfl, fun h ↦ ?_⟩
  have hnested : nested (js "b") 6 = nested (js "a") 6 := h
  simp only [nested, Tree.record.injEq, List.cons.injEq, Prod.mk.injEq, Tree.leaf.injEq,
    Primitive.string.injEq, and_true, true_and] at hnested
  exact absurd hnested (by decide +kernel)

end CodeArena.Observability
