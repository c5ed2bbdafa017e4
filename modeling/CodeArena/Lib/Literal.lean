import CodeArena.Lib.Pcre
import CodeArena.Lib.RunLength

/-!
# Literal patterns

A pattern finds exactly the texts that contain it as it is written if it is plain
(`pcre_literal_iff`).  There are three reasons why no other pattern does.

* An operator is never a character that a class asks for.  So a pattern that finds its own text
  finds it with another operator in the place of that one as well.
* A counted repetition takes characters of the pattern to say how often another one is to come.
  Such a pattern could only be literal if it was its own run-length expansion, and no text is.
* A full stop finds other characters.
-/

namespace CodeArena.Lib.Pcre

open CodeArena.Lib CodeArena.Lib.RunLength

/-! ## An operator is no character -/

section

variable {v : Version} {fold : Char → Char} {P : (Char → Bool) → Prop}

/-- Every class of what was read of a group has a property. -/
structure Frame.Atoms (P : (Char → Bool) → Prop) (f : Frame) : Prop where
  alternatives : ∀ r ∈ f.alternatives, r.Atoms P
  before : f.before.Atoms P
  last : f.last.Atoms P

theorem regreed_atoms {g : Greed} {r : Pat Char} (h : r.Atoms P) : (regreed g r).Atoms P := by
  cases r <;> exact h

namespace Frame.Atoms

variable {f f' : Frame} {r : Pat Char} {g : Greed} {min : Nat} {max : Option Nat}

theorem fresh : Frame.fresh.Atoms P := ⟨nofun, trivial, trivial⟩

theorem whole (h : f.Atoms P) : f.whole.Atoms P := by
  unfold Frame.whole
  split
  · exact ⟨h.before, h.last⟩
  · rename_i r hr
    exact ⟨h.alternatives r hr, h.before, h.last⟩

theorem push (h : f.Atoms P) (hr : r.Atoms P) (q : Repeatable) : (f.push r q).Atoms P :=
  ⟨h.alternatives, ⟨h.before, h.last⟩, hr⟩

theorem next (h : f.Atoms P) : f.next.Atoms P := by
  refine ⟨?_, trivial, trivial⟩
  rintro _ ⟨⟩
  exact h.whole

theorem quantify (h : f.Atoms P) (hf : f.quantify min max = some f') : f'.Atoms P := by
  unfold Frame.quantify at hf
  split at hf
  · cases hf
    exact ⟨h.alternatives, h.before, h.last⟩
  · cases hf

theorem suffix (h : f.Atoms P) (hf : f.suffix g min max = some f') : f'.Atoms P := by
  unfold Frame.suffix at hf
  split at hf
  · cases hf
    exact ⟨h.alternatives, h.before, regreed_atoms h.last⟩
  · exact h.quantify hf

end Frame.Atoms

/-- Every class of what was read has a property. -/
structure Reader.Atoms (P : (Char → Bool) → Prop) (st : Reader) : Prop where
  top : st.top.Atoms P
  around : ∀ f ∈ st.around, f.Atoms P

namespace Reader.Atoms

variable {st st' : Reader}

theorem feed {t : Token} (h : st.Atoms P) (ht : ∀ c, t = .char c → P (charClass fold c))
    (hfeed : st.feed v fold t = some st') : st'.Atoms P := by
  match t with
  | .char c =>
      cases hfeed
      exact ⟨h.top.push (r := .atom _) (ht c rfl) _, h.around⟩
  | .op .start =>
      cases hfeed
      exact ⟨h.top.push (r := .start) trivial _, h.around⟩
  | .op .stop =>
      cases hfeed
      exact ⟨h.top.push (r := .stop) trivial _, h.around⟩
  | .op .bar =>
      cases hfeed
      exact ⟨h.top.next, h.around⟩
  | .op .star =>
      obtain ⟨f, hf, rfl⟩ := Option.map_eq_some_iff.mp hfeed
      exact ⟨h.top.quantify hf, h.around⟩
  | .op .plus =>
      obtain ⟨f, hf, rfl⟩ := Option.map_eq_some_iff.mp hfeed
      exact ⟨h.top.suffix hf, h.around⟩
  | .op .question =>
      obtain ⟨f, hf, rfl⟩ := Option.map_eq_some_iff.mp hfeed
      exact ⟨h.top.suffix hf, h.around⟩
  | .op .openGroup =>
      cases hfeed
      exact ⟨.fresh, List.forall_mem_cons.mpr ⟨h.top, h.around⟩⟩
  | .op .closeGroup =>
      obtain ⟨top, around⟩ := st
      cases around with
      | nil => cases hfeed
      | cons f around =>
          cases hfeed
          obtain ⟨hf, haround⟩ := List.forall_mem_cons.mp h.around
          exact ⟨hf.push h.top.whole _, haround⟩
  | .count text =>
      rw [Reader.feed] at hfeed
      split at hfeed
      · cases hfeed
      · split at hfeed
        · obtain ⟨f, hf, rfl⟩ := Option.map_eq_some_iff.mp hfeed
          exact ⟨h.top.quantify hf, h.around⟩
        · cases hfeed

theorem feeds {ts : List Token} (h : st.Atoms P) (ht : ∀ c, .char c ∈ ts → P (charClass fold c))
    (hfeed : ts.foldlM (Reader.feed v fold) st = some st') : st'.Atoms P := by
  induction ts generalizing st with
  | nil =>
      cases hfeed
      exact h
  | cons t ts ih =>
      rw [List.foldlM_cons] at hfeed
      obtain ⟨m, hm, hrest⟩ := Option.bind_eq_some_iff.mp hfeed
      have hnext : m.Atoms P := h.feed (fun c hc ↦ ht c (hc ▸ List.mem_cons_self)) hm
      exact ih hnext (fun c hc ↦ ht c (List.mem_cons_of_mem t hc)) hrest

end Reader.Atoms

/-- The classes of a pattern are those of its characters that are no operators. -/
theorem parse_atoms {pattern : List Char} {r : Pat Char}
    (h : parse v fold (tokens v 0 pattern) = some r)
    (hP : ∀ c ∈ pattern, operator c = none → P (charClass fold c)) : r.Atoms P := by
  obtain ⟨st, hst, hfinish⟩ := Option.bind_eq_some_iff.mp h
  have hstart : Reader.Atoms P ⟨.fresh, []⟩ := ⟨.fresh, nofun⟩
  have hatoms := hstart.feeds (fun c hc ↦
    hP c (of_char_mem_tokens hc).1 (of_char_mem_tokens hc).2) hst
  unfold Reader.finish at hfinish
  split at hfinish
  · cases hfinish
    exact hatoms.top.whole
  · cases hfinish

end

/-- An ASCII character that is no letter. -/
def isSymbol (c : Char) : Bool := c.val < 128 && !c.isAlpha

theorem isSymbol_iff {c : Char} : isSymbol c = true ↔
    c.toNat < 128 ∧ ¬ (65 ≤ c.toNat ∧ c.toNat ≤ 90) ∧ ¬ (97 ≤ c.toNat ∧ c.toNat ≤ 122) := by
  have hupper : c.isUpper = true ↔ 65 ≤ c.toNat ∧ c.toNat ≤ 90 := decide_eq_true_iff
  have hlower : c.isLower = true ↔ 97 ≤ c.toNat ∧ c.toNat ≤ 122 :=
    Bool.and_eq_true_iff.trans (and_congr decide_eq_true_iff decide_eq_true_iff)
  have halpha : c.isAlpha = (c.isUpper || c.isLower) := rfl
  rw [← hupper, ← hlower, isSymbol, halpha, Bool.and_eq_true_iff, Bool.not_eq_true',
    Bool.or_eq_false_iff, Bool.not_eq_true, Bool.not_eq_true]
  exact and_congr_left fun _ ↦ decide_eq_true_iff

/-- Only letters have a case: `fold` tells a symbol from everything else. -/
def KeepsSymbols (fold : Char → Char) : Prop :=
  ∀ c d, isSymbol c = true → fold d = fold c → d = c

theorem isSymbol_of_operator {c : Char} {o : Operator} (h : operator c = some o) :
    isSymbol c = true := by
  rw [← operator_eq_some h]
  cases o <;> rfl

section

variable {v : Version} {fold : Char → Char} {pattern : List Char}

/-- A text with another operator in the place of one. -/
def exchange (c : Char) (d : Char) : Char :=
  if d = c then if c = '*' then '+' else '*' else d

theorem exchange_self {c : Char} (h : (operator c).isSome) :
    exchange c c ≠ c ∧ (operator (exchange c c)).isSome := by
  unfold exchange
  rw [if_pos rfl]
  split
  · rename_i hc
    subst hc
    decide
  · rename_i hc
    exact ⟨Ne.symm hc, rfl⟩

/-- No class that a pattern can have sees the exchange. -/
theorem charClass_exchange (hfold : KeepsSymbols fold) {c : Char} (hc : (operator c).isSome)
    {d : Char} (hd : operator d = none) (a : Char) :
    charClass fold d (exchange c a) = charClass fold d a := by
  by_cases ha : a = c
  · subst ha
    obtain ⟨-, hother⟩ := exchange_self hc
    have hno : ∀ e, (operator e).isSome → charClass fold d e = decide (d = '.') := by
      intro e he
      obtain ⟨o, ho⟩ := Option.isSome_iff_exists.mp he
      unfold charClass
      split
      · rename_i hdot
        have hne : e ≠ '\n' := by
          rintro rfl
          cases ho
        simp [hdot, hne]
      · rename_i hdot
        have hne : fold e ≠ fold d := by
          intro heq
          rw [hfold e d (isSymbol_of_operator ho) heq.symm, ho] at hd
          cases hd
        simp [hdot, hne]
    rw [hno _ hother, hno _ hc]
  · rw [exchange, if_neg ha]

/-- **A pattern with an operator is not literal**: it would find its text with another operator
in the place of that one. -/
theorem operator_eq_none_of_literal (hfold : KeepsSymbols fold) {matchesText : List Char → Bool}
    (hm : pcre v fold pattern = some matchesText)
    (hall : ∀ t, matchesText t = true ↔ pattern.map fold <:+: t.map fold) :
    ∀ c ∈ pattern, operator c = none := by
  intro c hc
  by_contra hne
  have hop : (operator c).isSome := Option.isSome_iff_ne_none.mpr hne
  obtain ⟨r, hr, rfl⟩ := Option.map_eq_some_iff.mp hm
  have hatoms : r.Atoms fun p ↦ ∀ a, p (exchange c a) = p a :=
    parse_atoms hr fun d _ hd ↦ charClass_exchange hfold hop hd
  -- a full stop stands for everything but a newline
  have hnewline : ∀ a, isNewline (exchange c a) = isNewline a := by
    intro a
    have hdot := charClass_exchange hfold hop (d := '.') rfl a
    simpa [charClass, isNewline] using hdot
  have hself : Pat.search isNewline r pattern = true := (hall pattern).mpr (List.infix_refl _)
  rw [← Pat.search_map hatoms hnewline, hall] at hself
  have heq := hself.eq_of_length (by simp)
  rw [List.map_map, List.map_inj_left] at heq
  obtain ⟨o, ho⟩ := Option.isSome_iff_exists.mp hop
  exact (exchange_self hop).1 (hfold c _ (isSymbol_of_operator ho) (heq c hc).symm)

end

/-! ## Kinds of characters -/

/-- The kind of a character. -/
def kind (c : Char) : Kind :=
  if c = '\x7b' then .opening
  else if c = '}' then .closing
  else if isInner c then .inner
  else .other

theorem kind_of_isInner {c : Char} (h : isInner c = true) : kind c = .inner := by
  have hopen : c ≠ '\x7b' := by
    rintro rfl
    cases h
  have hclose : c ≠ '}' := by
    rintro rfl
    cases h
  rw [kind, if_neg hopen, if_neg hclose, if_pos h]

theorem isSymbol_of_isInner {c : Char} (h : isInner c = true) : isSymbol c = true := by
  simp only [isInner, isBlank, Bool.or_eq_true, decide_eq_true_eq] at h
  rcases h with (h | rfl) | rfl | rfl
  · obtain ⟨hlow, hhigh⟩ := Bool.and_eq_true_iff.mp h
    have hdigit : 48 ≤ c.toNat ∧ c.toNat ≤ 57 := ⟨of_decide_eq_true hlow, of_decide_eq_true hhigh⟩
    rw [isSymbol_iff]
    omega
  · rfl
  · rfl
  · rfl

/-- The kinds that matter are those of symbols. -/
theorem isSymbol_of_kind {c : Char} (h : kind c ≠ .other) : isSymbol c = true := by
  unfold kind at h
  split at h
  · rename_i hc
    subst hc
    rfl
  · split at h
    · rename_i hc
      subst hc
      rfl
    · split at h
      · rename_i hc
        exact isSymbol_of_isInner hc
      · exact absurd rfl h

/-- Characters that differ in case are of one kind. -/
theorem kind_eq {fold : Char → Char} (hfold : KeepsSymbols fold) {c d : Char}
    (h : fold c = fold d) : kind c = kind d := by
  by_cases hc : kind c = .other
  · by_cases hd : kind d = .other
    · rw [hc, hd]
    · rw [hfold d c (isSymbol_of_kind hd) h]
  · rw [hfold c d (isSymbol_of_kind hc) h.symm]

/-! ## Patterns without operators -/

/-- A character with its counted repetition, if it has one: the text between the braces and the
lower bound. -/
structure Item where
  char : Char
  count : Option (List Char × Nat)

/-- A character that a pattern finds at the place of one of its own. -/
def standIn (c : Char) : Char := if c = '.' then 'x' else c

theorem charClass_standIn (fold : Char → Char) (c : Char) :
    charClass fold c (standIn c) = true := by
  unfold charClass standIn
  split
  · decide
  · exact decide_eq_true rfl

theorem flatMap_eq_map {α β : Type} {f : α → List β} {g : α → β} {xs : List α}
    (h : ∀ x ∈ xs, f x = [g x]) : xs.flatMap f = xs.map g := by
  induction xs with
  | nil => rfl
  | cons x xs ih =>
      obtain ⟨hx, hxs⟩ := List.forall_mem_cons.mp h
      rw [List.flatMap_cons, hx, ih hxs]
      rfl

namespace Item

/-- The tokens of an item. -/
def tokens (i : Item) : List Token :=
  .char i.char :: (i.count.map fun e ↦ Token.count e.1).toList

/-- What an item asks for at least. -/
def word (i : Item) : List Char :=
  match i.count with
  | none => [standIn i.char]
  | some (_, min) => List.replicate min (standIn i.char)

/-- The text between the braces has the bounds. -/
def Bounded (v : Version) (i : Item) : Prop := ∀ e ∈ i.count, ∃ max, bounds v e.1 = some (e.2, max)

/-- The item, as far as counted repetitions are concerned. -/
def run (i : Item) : Run := ⟨kind i.char, i.count.map fun e ↦ (e.2, e.1.length - 1)⟩

/-- A character that is not counted. -/
def once (c : Char) : Item := ⟨c, none⟩

theorem bounded_once (v : Version) (c : Char) : (once c).Bounded v := by
  rintro e he
  cases he

theorem flatMap_tokens_once (cs : List Char) : (cs.map once).flatMap tokens = cs.map .char := by
  rw [List.flatMap_map]
  exact flatMap_eq_map fun _ _ ↦ rfl

theorem flatMap_word_once (cs : List Char) : (cs.map once).flatMap word = cs.map standIn := by
  rw [List.flatMap_map]
  exact flatMap_eq_map fun _ _ ↦ rfl

theorem map_kind_text {v : Version} {i : Item} (h : i.Bounded v) :
    (i.tokens.flatMap Token.text).map kind = i.run.text := by
  obtain ⟨c, count⟩ := i
  match count with
  | none => rfl
  | some (text, min) =>
      obtain ⟨max, hbounds⟩ := h _ rfl
      obtain ⟨hne, hinner⟩ := of_bounds hbounds
      have hkind : text.map kind = .inner :: List.replicate (text.length - 1) .inner := by
        rw [List.map_congr_left fun c hc ↦ kind_of_isInner (hinner c hc), List.map_const',
          ← List.replicate_succ, Nat.sub_add_cancel (List.length_pos_of_ne_nil hne)]
      simp [tokens, Token.text, run, Run.text, hkind]
      decide

theorem map_kind_word (i : Item) : i.word.map kind = i.run.word := by
  obtain ⟨c, count⟩ := i
  have hkind : kind (standIn c) = kind c := by
    unfold standIn
    split
    · rename_i hc
      subst hc
      rfl
    · rfl
  cases count with
  | none => simp [word, run, Run.word, hkind]
  | some e => simp [word, run, Run.word, hkind]

end Item

section

variable {v : Version} {fold : Char → Char}

/-- Reading items: `pending` is a character that may still be repeated, and `w` is what the items
before it ask for. -/
inductive Reading (fold : Char → Char) (f : Frame) (w : List Char) : Option Char → Prop
  | done : f.repeatable ≠ .item → Pat.Takes isNewline f.sequence w → Reading fold f w none
  | pending {g : Frame} {c : Char} : f = g.push (.atom (charClass fold c)) .item →
      Pat.Takes isNewline g.sequence w → Reading fold f w (some c)

theorem Reading.takes {f : Frame} {w : List Char} {pending : Option Char}
    (h : Reading fold f w pending) :
    Pat.Takes isNewline f.sequence (w ++ pending.toList.map standIn) := by
  cases h with
  | done _ h => rwa [Option.toList_none, List.map_nil, List.append_nil]
  | pending hf h =>
      subst hf
      exact h.seq (.atom (charClass_standIn fold _))

/-- **A pattern without operators** is read as items, and takes what they ask for. -/
theorem exists_items {ts : List Token} (hops : ∀ o, .op o ∉ ts) {f : Frame} {w : List Char}
    {pending : Option Char} {st : Reader} (hnone : f.alternatives = none)
    (hread : Reading fold f w pending)
    (hfeed : ts.foldlM (Reader.feed v fold) ⟨f, []⟩ = some st) :
    ∃ items : List Item, pending.toList.map .char ++ ts = items.flatMap Item.tokens ∧
      (∀ i ∈ items, i.Bounded v) ∧ st.around = [] ∧
      Pat.Takes isNewline st.top.whole (w ++ items.flatMap Item.word) := by
  induction ts generalizing f w pending with
  | nil =>
      cases hfeed
      refine ⟨pending.toList.map Item.once, ?_, ?_, rfl, ?_⟩
      · rw [List.append_nil, Item.flatMap_tokens_once]
      · exact List.forall_mem_map.mpr fun c _ ↦ Item.bounded_once v c
      · rw [Frame.whole, hnone, Item.flatMap_word_once]
        exact hread.takes
  | cons t ts ih =>
      have hrest : ∀ o, .op o ∉ ts := fun o ho ↦ hops o (List.mem_cons_of_mem t ho)
      rw [List.foldlM_cons] at hfeed
      obtain ⟨m, hm, hfeed⟩ := Option.bind_eq_some_iff.mp hfeed
      match t with
      | .op o => exact absurd List.mem_cons_self (hops o)
      | .char c =>
          cases hm
          obtain ⟨items, hitems, hbounded, haround, htakes⟩ := ih hrest
            (f := f.push (.atom (charClass fold c)) .item) hnone (.pending rfl hread.takes) hfeed
          refine ⟨pending.toList.map Item.once ++ items, ?_, ?_, haround, ?_⟩
          · rw [List.flatMap_append, Item.flatMap_tokens_once, ← hitems]
            rfl
          · refine List.forall_mem_append.mpr ⟨?_, hbounded⟩
            exact List.forall_mem_map.mpr fun c _ ↦ Item.bounded_once v c
          · rwa [List.flatMap_append, Item.flatMap_word_once, ← List.append_assoc]
      | .count text =>
          rw [Reader.feed] at hm
          split at hm
          · cases hm
          · rename_i min max hbounds
            split at hm
            · obtain ⟨g, hg, rfl⟩ := Option.map_eq_some_iff.mp hm
              cases hread with
              | done hrepeatable =>
                  unfold Frame.quantify at hg
                  split at hg
                  · rename_i hitem
                    exact absurd hitem hrepeatable
                  · cases hg
              | @pending g' c hf htakes =>
                  subst hf
                  cases hg
                  have htakes' := htakes.seq (.repeated (charClass_standIn fold c) min max)
                  obtain ⟨items, hitems, hbounded, haround, htakes⟩ := ih hrest
                    (f := g'.push (.repeated .greedy min max (.atom (charClass fold c))) .repetition)
                    hnone (.done (by intro h; cases h) htakes') hfeed
                  refine ⟨⟨c, some (text, min)⟩ :: items, ?_, ?_, haround, ?_⟩
                  · rw [List.flatMap_cons, ← hitems]
                    rfl
                  · refine List.forall_mem_cons.mpr ⟨?_, hbounded⟩
                    rintro _ ⟨⟩
                    exact ⟨max, hbounds⟩
                  · rwa [List.flatMap_cons, ← List.append_assoc]
            · cases hm

end

/-! ## Literal patterns -/

section

variable {v : Version} {fold : Char → Char} {pattern : List Char}

theorem map_kind_eq (hfold : KeepsSymbols fold) {s t : List Char} (h : s.map fold = t.map fold) :
    s.map kind = t.map kind := by
  induction s generalizing t with
  | nil =>
      rw [List.map_nil, List.nil_eq, List.map_eq_nil_iff] at h
      rw [h]
  | cons c s ih =>
      obtain ⟨d, t, rfl, hhead, htail⟩ := List.map_eq_cons_iff.mp h.symm
      rw [List.map_cons, List.map_cons, kind_eq hfold hhead, ih htail.symm]

/-- Items that ask for what is written, up to case, are their own run-length expansion. -/
theorem run_word_eq_text (hfold : KeepsSymbols fold) {items : List Item}
    (hbounded : ∀ i ∈ items, i.Bounded v)
    (heq : (items.flatMap fun i ↦ i.tokens.flatMap Token.text).map fold =
      (items.flatMap Item.word).map fold) :
    (items.map Item.run).flatMap Run.word = (items.map Item.run).flatMap Run.text := by
  have hmap := map_kind_eq hfold heq
  rw [List.map_flatMap, List.map_flatMap] at hmap
  rw [List.flatMap_map, List.flatMap_map]
  refine Eq.trans ?_ (hmap.symm.trans ?_)
  · exact congrArg (List.flatMap · items) (funext fun i ↦ i.map_kind_word.symm)
  · rw [List.flatMap_def, List.flatMap_def]
    exact congrArg List.flatten
      (List.map_congr_left fun i hi ↦ Item.map_kind_text (hbounded i hi))

/-- **A literal pattern is read as it is written**: it takes no text that is longer than itself,
and none that is shorter, so that it is what it asks for. -/
theorem tokens_eq_char_of_literal (hfold : KeepsSymbols fold) {matchesText : List Char → Bool}
    (hm : pcre v fold pattern = some matchesText)
    (hall : ∀ t, matchesText t = true ↔ pattern.map fold <:+: t.map fold) :
    tokens v 0 pattern = pattern.map .char ∧ ∀ c ∈ pattern, c ≠ '.' := by
  have hnone := operator_eq_none_of_literal hfold hm hall
  have htext : (tokens v 0 pattern).flatMap Token.text = pattern := flatMap_tokens 0
  have hops : ∀ o, .op o ∉ tokens v 0 pattern := by
    intro o ho
    have hmem : o.symbol ∈ pattern := by
      rw [← htext]
      exact List.mem_flatMap.mpr ⟨_, ho, List.mem_singleton_self _⟩
    have hsymbol := hnone _ hmem
    cases o <;> cases hsymbol
  obtain ⟨r, hr, rfl⟩ := Option.map_eq_some_iff.mp hm
  obtain ⟨st, hst, hfinish⟩ := Option.bind_eq_some_iff.mp hr
  have hfresh : Reading fold .fresh [] none :=
    .done (by intro h; cases h) (Pat.Takes.empty.seq .empty)
  obtain ⟨items, hitems, hbounded, haround, htakes⟩ := exists_items hops rfl hfresh hst
  rw [Option.toList_none, List.map_nil, List.nil_append] at hitems
  rw [List.nil_append] at htakes
  obtain rfl : st.top.whole = r := by
    rw [Reader.finish, haround] at hfinish
    exact Option.some.inj hfinish
  have hfound := (hall _).mp htakes.search
  have hlen := htakes.length_le ((hall pattern).mpr (List.infix_refl _))
  have heq : pattern.map fold = (items.flatMap Item.word).map fold :=
    hfound.eq_of_length_le (by rwa [List.length_map, List.length_map])
  -- the pattern would be its own run-length expansion
  have hpattern : items.flatMap (fun i ↦ i.tokens.flatMap Token.text) = pattern := by
    rw [← List.flatMap_assoc, ← hitems, htext]
  have hkinds := run_word_eq_text hfold hbounded (hpattern.symm ▸ heq)
  have hcount : ∀ i ∈ items, i.count = none := by
    intro i hi
    have hrun := Run.count_eq_none hkinds _ (List.mem_map_of_mem hi)
    exact Option.map_eq_none_iff.mp hrun
  have hone : ∀ i ∈ items, i.tokens = [.char i.char] ∧ i.word = [standIn i.char] := by
    intro i hi
    rw [Item.tokens, Item.word, hcount i hi]
    exact ⟨rfl, rfl⟩
  have htokens : tokens v 0 pattern = (items.map Item.char).map .char := by
    rw [hitems, flatMap_eq_map fun i hi ↦ (hone i hi).1, List.map_map]
    rfl
  obtain rfl : pattern = items.map Item.char := by
    rw [← hpattern, flatMap_eq_map fun i hi ↦ by rw [(hone i hi).1]; rfl]
  refine ⟨htokens, ?_⟩
  rintro c hc rfl
  obtain ⟨i, hi, hdot⟩ := List.mem_map.mp hc
  rw [flatMap_eq_map fun i hi ↦ (hone i hi).2, List.map_map, List.map_map,
    List.map_inj_left] at heq
  have hx : fold i.char = fold (standIn i.char) := heq i hi
  rw [hdot] at hx
  exact absurd (hfold '.' 'x' rfl hx.symm) (by decide)

/-- Tokens for characters are read as what spells their classes. -/
theorem feeds_char (fold : Char → Char) (cs : List Char) {f : Frame} {qs : List (Char → Bool)}
    (hf : f.alternatives = none) (hspell : f.sequence.Spells isNewline qs) :
    ∃ f', (cs.map Token.char).foldlM (Reader.feed v fold) ⟨f, []⟩ = some ⟨f', []⟩ ∧
      f'.alternatives = none ∧ f'.sequence.Spells isNewline (qs ++ cs.map (charClass fold)) := by
  induction cs generalizing f qs with
  | nil => exact ⟨f, rfl, hf, by rwa [List.map_nil, List.append_nil]⟩
  | cons c cs ih =>
      obtain ⟨f', hfeed, hf', hspell'⟩ := ih (f := f.push (.atom (charClass fold c)) .item) hf
        (hspell.seq (.atom (charClass fold c)))
      refine ⟨f', hfeed, hf', ?_⟩
      rwa [List.append_assoc] at hspell'

/-- A pattern that is read as it is written finds the texts that have a part with its classes. -/
theorem pcre_eq_some (fold : Char → Char) (h : tokens v 0 pattern = pattern.map .char) :
    ∃ matchesText, pcre v fold pattern = some matchesText ∧ ∀ t, matchesText t = true ↔
      ∃ as, List.Forall₂ (fun c a ↦ charClass fold c a = true) pattern as ∧ as <:+: t := by
  obtain ⟨f, hfeed, hf, hspell⟩ := feeds_char (v := v) fold pattern (f := .fresh) rfl
    (Pat.Spells.empty.seq .empty)
  refine ⟨Pat.search isNewline f.sequence, ?_, fun t ↦ ?_⟩
  · rw [pcre, h, parse, hfeed]
    show some (Pat.search isNewline f.whole) = _
    rw [Frame.whole, hf]
  · rw [hspell.search_iff]
    simp only [List.nil_append, List.forall₂_map_left_iff]

/-- Without full stops, the classes are those of the characters up to case. -/
theorem forall₂_charClass {as : List Char} (h : ∀ c ∈ pattern, c ≠ '.') :
    List.Forall₂ (fun c a ↦ charClass fold c a = true) pattern as ↔
      pattern.map fold = as.map fold := by
  induction pattern generalizing as with
  | nil =>
      rw [List.forall₂_nil_left_iff, List.map_nil, List.nil_eq, List.map_eq_nil_iff]
  | cons c cs ih =>
      have hclass : ∀ a, charClass fold c a = true ↔ fold c = fold a := by
        intro a
        rw [charClass, if_neg (h c List.mem_cons_self), decide_eq_true_iff, eq_comm]
      cases as with
      | nil =>
          constructor
          · exact nofun
          · exact nofun
      | cons a as =>
          rw [List.forall₂_cons, hclass, ih fun c' hc' ↦ h c' (List.mem_cons_of_mem c hc'),
            List.map_cons, List.map_cons, List.cons.injEq]

theorem infix_map_iff {α β : Type} {f : α → β} {xs ys : List α} :
    xs.map f <:+: ys.map f ↔ ∃ zs, xs.map f = zs.map f ∧ zs <:+: ys := by
  constructor
  · rintro ⟨s, t, h⟩
    obtain ⟨st, r, rfl, hst, -⟩ := List.map_eq_append_iff.mp h.symm
    obtain ⟨l, m, rfl, -, hm⟩ := List.map_eq_append_iff.mp hst
    exact ⟨m, hm.symm, l, r, rfl⟩
  · rintro ⟨zs, heq, hz⟩
    rw [heq]
    exact hz.map f

/-- **Where a pattern is literal.**  A pattern finds the texts that contain it, up to the case
of letters, exactly if none of its characters is special and it has no counted repetition. -/
theorem pcre_literal_iff (hfold : KeepsSymbols fold) :
    (∃ matchesText, pcre v fold pattern = some matchesText ∧
      ∀ t, matchesText t = true ↔ pattern.map fold <:+: t.map fold) ↔
      plain v pattern = true := by
  rw [plain_iff]
  constructor
  · rintro ⟨matchesText, hm, hall⟩
    exact tokens_eq_char_of_literal hfold hm hall
  · rintro ⟨htokens, hdot⟩
    obtain ⟨matchesText, hm, hclasses⟩ := pcre_eq_some fold htokens
    refine ⟨matchesText, hm, fun t ↦ ?_⟩
    rw [hclasses, infix_map_iff]
    exact exists_congr fun as ↦ and_congr_left fun _ ↦ forall₂_charClass hdot

end

end CodeArena.Lib.Pcre
