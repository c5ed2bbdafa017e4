import CodeArena.Lib.Prometheus

/-!
# Texts in the Prometheus format

Reading brings in no character, and the lines of a text are read one by one: a list of items
that are all printable is read back as their samples (`parseLines_items`).
-/

namespace CodeArena.Lib.Prometheus

/-! ## Characters of what is read -/

theorem skipBlanks_subset (cs : List Char) : skipBlanks cs ⊆ cs :=
  (List.dropWhile_suffix isBlank).subset

theorem parseName_subset {start rest : Char → Bool} {cs name out : List Char}
    (h : parseName start rest cs = some (name, out)) : out ⊆ cs := by
  cases cs with
  | nil => cases h
  | cons c cs =>
      rw [parseName] at h
      split at h
      case isTrue =>
        cases h
        exact List.Subset.trans (List.dropWhile_suffix rest).subset (List.subset_cons_self c cs)
      case isFalse => cases h

theorem expect_subset {c : Char} {cs out : List Char} (h : expect c cs = some out) : out ⊆ cs := by
  cases cs with
  | nil => cases h
  | cons d cs =>
      rw [expect] at h
      split at h
      case isTrue =>
        cases h
        exact fun x hx ↦ List.mem_cons_of_mem d hx
      case isFalse => cases h

theorem unescape_eq_some {d e : Char} (h : unescape d = some e) : e = d ∨ e = '\n' := by
  unfold unescape at h
  split at h
  case isTrue => cases h; exact .inr rfl
  case isFalse =>
    split at h
    case isTrue => cases h; exact .inl rfl
    case isFalse => cases h

/-- Reading a value brings in no character but a line feed. -/
theorem parseQuoted_subset {cs v out : List Char} (h : parseQuoted cs = some (v, out)) :
    (∀ c ∈ v, c ∈ cs ∨ c = '\n') ∧ out ⊆ cs := by
  induction cs using parseQuoted.induct generalizing v out with
  | case1 => cases h
  | case2 cs =>
      rw [parseQuoted_quote] at h
      cases h
      exact ⟨fun c hc ↦ absurd hc List.not_mem_nil, fun x hx ↦ List.mem_cons_of_mem _ hx⟩
  | case3 =>
      rw [parseQuoted.eq_def] at h
      cases h
  | case4 d cs _ ih =>
      rw [parseQuoted_escape] at h
      obtain ⟨e, he, h⟩ := Option.bind_eq_some_iff.mp h
      obtain ⟨⟨u, out'⟩, hu, heq⟩ := Option.map_eq_some_iff.mp h
      cases heq
      obtain ⟨hmem, hsub⟩ := ih hu
      have hkeep {c : Char} (hc : c ∈ cs) : c ∈ '\\' :: d :: cs :=
        List.mem_cons_of_mem _ (List.mem_cons_of_mem _ hc)
      refine ⟨fun c hc ↦ ?_, fun x hx ↦ hkeep (hsub hx)⟩
      rcases List.mem_cons.mp hc with rfl | hc
      · rcases unescape_eq_some he with rfl | rfl
        · exact .inl (List.mem_cons_of_mem _ List.mem_cons_self)
        · exact .inr rfl
      · exact (hmem c hc).imp hkeep id
  | case5 c cs hquote hescape ih =>
      rw [parseQuoted_cons ⟨hquote, hescape⟩] at h
      obtain ⟨⟨u, out'⟩, hu, heq⟩ := Option.map_eq_some_iff.mp h
      cases heq
      obtain ⟨hmem, hsub⟩ := ih hu
      refine ⟨fun d hd ↦ ?_, fun x hx ↦ List.mem_cons_of_mem c (hsub hx)⟩
      rcases List.mem_cons.mp hd with rfl | hd
      · exact .inl List.mem_cons_self
      · exact (hmem d hd).imp (List.mem_cons_of_mem c) id

theorem parseLabel_subset {cs out : List Char} {label : Label}
    (h : parseLabel cs = some (label, out)) :
    (∀ c ∈ label.2, c ∈ cs ∨ c = '\n') ∧ out ⊆ cs := by
  obtain ⟨⟨name, cs₁⟩, h₁, h⟩ := Option.bind_eq_some_iff.mp h
  obtain ⟨cs₂, h₂, h⟩ := Option.bind_eq_some_iff.mp h
  obtain ⟨cs₃, h₃, h⟩ := Option.bind_eq_some_iff.mp h
  obtain ⟨⟨value, cs₄⟩, h₄, heq⟩ := Option.map_eq_some_iff.mp h
  cases heq
  have hsub : cs₃ ⊆ cs :=
    calc
      cs₃ ⊆ skipBlanks cs₂ := expect_subset h₃
      _ ⊆ cs₂ := skipBlanks_subset cs₂
      _ ⊆ skipBlanks cs₁ := expect_subset h₂
      _ ⊆ cs₁ := skipBlanks_subset cs₁
      _ ⊆ cs := parseName_subset h₁
  obtain ⟨hmem, hrest⟩ := parseQuoted_subset h₄
  exact ⟨fun c hc ↦ (hmem c hc).imp_left fun hc ↦ hsub hc,
    fun x hx ↦ hsub (hrest (skipBlanks_subset cs₄ hx))⟩

theorem parseLabels_subset {n : Nat} {cs out : List Char} {labels : List Label}
    (h : parseLabels n cs = some (labels, out)) :
    ∀ label ∈ labels, ∀ c ∈ label.2, c ∈ cs ∨ c = '\n' := by
  induction n generalizing cs out labels with
  | zero => cases h
  | succ n ih =>
      rw [parseLabels] at h
      split at h
      case isTrue =>
        cases h
        exact fun label hl ↦ absurd hl List.not_mem_nil
      case isFalse =>
        obtain ⟨⟨first, cs₁⟩, hfirst, h⟩ := Option.bind_eq_some_iff.mp h
        obtain ⟨hmem, hsub⟩ := parseLabel_subset hfirst
        cases cs₁ with
        | nil => cases h
        | cons d cs₁ =>
            dsimp only at h
            split at h
            case isTrue =>
              obtain ⟨⟨more, out'⟩, hmore, heq⟩ := Option.map_eq_some_iff.mp h
              cases heq
              intro label hl
              rcases List.mem_cons.mp hl with rfl | hl
              · exact hmem
              · intro c hc
                refine (ih hmore label hl c hc).imp_left fun hc ↦ ?_
                exact hsub (List.mem_cons_of_mem d (skipBlanks_subset cs₁ hc))
            case isFalse =>
              split at h
              case isTrue =>
                cases h
                intro label hl
                rw [List.mem_singleton.mp hl]
                exact hmem
              case isFalse => cases h

/-- **Reading a printed sample brings in no character but a line feed.** -/
theorem parseSample_subset {name : List Char} {labels : List Label} {value : List Char}
    {s : Sample} (hname : isName isMetricStart isMetricRest name = true)
    (h : parseSample (print name labels value) = some s) :
    ∀ label ∈ s.labels, ∀ c ∈ label.2, c ∈ print name labels value ∨ c = '\n' := by
  obtain ⟨-, n, out, hlabels⟩ := parseSample_inv hname h
  intro label hl c hc
  refine (parseLabels_subset hlabels label hl c hc).imp_left fun hc ↦ ?_
  have hc := skipBlanks_subset _ hc
  rw [print, List.append_assoc]
  apply List.mem_append_right
  rw [List.cons_append]
  exact List.mem_cons_of_mem _ hc

/-! ## Lines -/

/-- The text with these lines, each with a line feed after it. -/
def joinLines (lines : List (List Char)) : List Char := ['\n'].intercalate lines ++ ['\n']

theorem parseLine_comment (cs : List Char) : parseLine ('#' :: cs) = some none := rfl

theorem parseLines_append (xs ys : List (List Char)) :
    parseLines (xs ++ ys) = (parseLines xs).bind fun a ↦ (parseLines ys).map (a ++ ·) := by
  induction xs with
  | nil =>
      rw [List.nil_append, parseLines, Option.bind_some]
      exact (Option.map_id' (x := parseLines ys)).symm
  | cons x xs ih =>
      rw [List.cons_append, parseLines, parseLines, ih]
      cases parseLine x with
      | none => rfl
      | some s =>
          cases parseLines xs with
          | none => rfl
          | some a =>
              cases parseLines ys with
              | none => rfl
              | some b => exact congrArg some (List.append_assoc _ _ _).symm

theorem parseLines_comments {cs : List (List Char)} (h : ∀ c ∈ cs, c.head? = some '#') :
    parseLines cs = some [] := by
  induction cs with
  | nil => rfl
  | cons c cs ih =>
      obtain ⟨c, rfl⟩ := List.head?_eq_some_iff.mp (h c List.mem_cons_self)
      rw [parseLines, parseLine_comment, ih fun c hc ↦ h c (List.mem_cons_of_mem _ hc)]
      rfl

/-- Two sections with comments in front of each. -/
theorem parseLines_sections {cs cs' : List (List Char)} (hcs : ∀ c ∈ cs, c.head? = some '#')
    (hcs' : ∀ c ∈ cs', c.head? = some '#') (xs ys : List (List Char)) :
    parseLines (cs ++ xs ++ cs' ++ ys) =
      (parseLines xs).bind fun a ↦ (parseLines ys).map (a ++ ·) := by
  have hxs : parseLines (cs ++ xs ++ cs') = parseLines xs := by
    rw [parseLines_append, parseLines_append, parseLines_comments hcs, parseLines_comments hcs']
    cases parseLines xs with
    | none => rfl
    | some a => exact congrArg some (List.append_nil a)
  rw [parseLines_append, hxs]

theorem intercalate_append_nil (lines : List (List Char)) (hne : lines ≠ []) :
    joinLines lines = ['\n'].intercalate (lines ++ [[]]) := by
  unfold joinLines
  induction lines with
  | nil => exact absurd rfl hne
  | cons line lines ih =>
      cases lines with
      | nil => simp [List.intercalate]
      | cons next lines =>
          have h := ih (List.cons_ne_nil _ _)
          simp only [List.cons_append, List.intercalate_cons_cons, List.append_assoc] at h ⊢
          rw [h]

/-- **The lines of a text are read one by one.** -/
theorem parseText_joinLines {lines : List (List Char)} (hne : lines ≠ [])
    (hfeed : ∀ line ∈ lines, '\n' ∉ line) : parseText (joinLines lines) = parseLines lines := by
  have hfeed' : ∀ line ∈ lines ++ [[]], '\n' ∉ line := by
    intro line hline
    rcases List.mem_append.mp hline with hline | hline
    · exact hfeed line hline
    · rw [List.mem_singleton.mp hline]
      exact List.not_mem_nil
  rw [parseText, intercalate_append_nil lines hne,
    List.splitOn_intercalate '\n' hfeed' (by simp), parseLines_append]
  cases parseLines lines with
  | none => rfl
  | some ss => exact congrArg some (List.append_nil ss)

section Lines

variable {α : Type} {f : α → List Char} {xs : List α} {ss : List Sample}

/-- Lines that are read as samples. -/
theorem parseLines_map {g : α → Sample} (h : ∀ x ∈ xs, parseLine (f x) = some (some (g x))) :
    parseLines (xs.map f) = some (xs.map g) := by
  induction xs with
  | nil => rfl
  | cons x xs ih =>
      rw [List.map_cons, parseLines, h x List.mem_cons_self,
        ih fun y hy ↦ h y (List.mem_cons_of_mem _ hy)]
      rfl

/-- Lines that are neither blank nor comments are read as one sample each. -/
theorem parseLines_forall₂ (hline : ∀ x ∈ xs, parseLine (f x) = (parseSample (f x)).map some)
    (h : parseLines (xs.map f) = some ss) :
    List.Forall₂ (fun x s ↦ parseSample (f x) = some s) xs ss := by
  induction xs generalizing ss with
  | nil =>
      cases h
      exact .nil
  | cons x xs ih =>
      rw [List.map_cons, parseLines, hline x List.mem_cons_self] at h
      obtain ⟨o, ho, h⟩ := Option.bind_eq_some_iff.mp h
      obtain ⟨s, hs, rfl⟩ := Option.map_eq_some_iff.mp ho
      obtain ⟨rest, hrest, rfl⟩ := Option.map_eq_some_iff.mp h
      exact .cons hs (ih (fun y hy ↦ hline y (List.mem_cons_of_mem _ hy)) hrest)

end Lines

/-! ## Items -/

/-- A character of a printed sample is punctuation or comes from what is printed. -/
theorem not_mem_print {name : List Char} {labels : List Label} {value : List Char} {a : Char}
    (ha : a ∉ ['{', '}', ' ', '=', '"', ',']) (hname : a ∉ name) (hvalue : a ∉ value)
    (hlabels : ∀ label ∈ labels, a ∉ label.1 ∧ a ∉ label.2) : a ∉ print name labels value := by
  simp only [List.mem_cons, List.not_mem_nil, or_false, not_or] at ha
  obtain ⟨hopen, hclose, hspace, heq, hquote, hcomma⟩ := ha
  have hlabel {label : Label} (hl : a ∉ label.1 ∧ a ∉ label.2) : a ∉ printLabel label := by
    simp [printLabel, hl.1, hl.2, heq, hquote]
  have hprint : a ∉ printLabels labels := by
    induction labels with
    | nil => exact List.not_mem_nil
    | cons label labels ih =>
        have hfirst := hlabel (hlabels label List.mem_cons_self)
        cases labels with
        | nil => exact hfirst
        | cons next labels =>
            have hrest := ih fun l hl ↦ hlabels l (List.mem_cons_of_mem _ hl)
            rw [printLabels_cons label (List.cons_ne_nil _ _)]
            simp [hfirst, hrest, hcomma]
  simp [print, hname, hvalue, hprint, hopen, hclose, hspace]

namespace Item

/-- The item is printed in a way that can be read: plain labels, and a value. -/
structure IsPrintable (item : Item) : Prop where
  name : isName isMetricStart isMetricRest item.name = true
  nonempty : item.labels ≠ []
  labels : ∀ label ∈ item.labels, Printable label
  token : ∀ c ∈ item.value, isBlank c = false
  value : (parseValue item.value).isSome = true

/-- The sample that an item stands for. -/
def sample (item : Item) : Sample where
  name := item.name
  labels := item.labels
  value := (parseValue item.value).getD .nan
  timestamp := none

theorem IsPrintable.parseSample_line {item : Item} (h : item.IsPrintable) :
    parseSample item.line = some item.sample := by
  obtain ⟨v, hv⟩ := Option.isSome_iff_exists.mp h.value
  rw [line, parseSample_print h.name h.nonempty h.labels h.token hv, sample, hv]
  rfl

end Item

/-- **Printable items are read back.** -/
theorem parseLines_items {items : List Item} (h : ∀ item ∈ items, item.IsPrintable) :
    parseLines (items.map Item.line) = some (items.map Item.sample) := by
  apply parseLines_map
  intro item hitem
  rw [Item.line, parseLine_print (h item hitem).name, ← Item.line, (h item hitem).parseSample_line]
  rfl

end CodeArena.Lib.Prometheus
