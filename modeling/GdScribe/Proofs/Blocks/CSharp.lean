import GdScribe.Proofs.Blocks.Sentences

/-!
# Blocks in C#

Each class and each block of a script has braces of its own, so that a statement has one pair of
braces more around it than its indentation says.

* `CSharp.Kept`: what holds of a finished script.

Main statement: `CSharp.keeper`.
-/

namespace GdScribe.CSharp

open Target Outline
open Read (Serves)

variable {s : Settings} {t : ClassTable} {p q : Pages State} {st st' : Stage}

/-! ## Names -/

variable {n : String}

theorem nameParts_pascal (h : Scan.IsIdentifier n) : Over (fun c => Scan.isNamePart c = true) (pascal n) :=
  pascal_over namePart_caseClosed h.letters

theorem typeText_pascal (h : Scan.IsIdentifier n) : TypeText (pascal n) :=
  (nameParts_pascal h).mono fun _ => typeChar_of_isNamePart

theorem typeText_typeName (h : TypeText n) : TypeText (typeName s t (some n)) :=
  typeName_over (by decide) s t h

theorem inline_variableName (h : FreeName n) : Inline (variableName s n).toList := by
  unfold variableName
  cases hl : variableNames.lookup n with
  | some text =>
    obtain ⟨k, hk⟩ := mem_of_lookup hl
    have all : ∀ e ∈ variableNames, snugBy (fun c => !outlineMarks.contains c) 0 e.2.toList = true := by
      decide
    exact .of_snug (all _ hk)
  | none =>
    dsimp only
    split
    · refine Inline.enclose (w := "typeof") (by decide) (Over.inline ?_).enclosed
      have name : Over (fun c => Scan.isNamePart c = true) (Text.replaceAll n "TYPE_" "") :=
        Over.replaceAll h.identifier.letters .empty nofun
      exact (pascal_over namePart_caseClosed (namePart_caseClosed.lowered name)).mono fun _ => typeChar_of_isNamePart
    · exact h.typeText.inline

theorem leadingUnderscores_of_not_mem (h : '_' ∉ n.toList) : leadingUnderscores n = 0 := by
  have none : n.toList.takeWhile (· == '_') = [] := by
    rw [List.takeWhile_eq_nil_iff]
    intro hn start
    exact h (beq_iff_eq.mp start ▸ List.getElem_mem hn)
  unfold leadingUnderscores
  rw [none]
  exact ite_self 0

theorem pascal_cases (h : '_' ∉ n.toList) : pascal n = n ∨ pascal n = Text.capitalize n := by
  unfold pascal
  rw [Text.split_of_not_mem (x := '_') (by decide) h, leadingUnderscores_of_not_mem h]
  dsimp only
  split
  · exact .inl rfl
  · exact .inr (by simp [Text.times])

theorem isLibraryChar_clear (c : Char) (h : isLibraryChar c = true) : c ∉ outlineMarks := by
  have marks : ∀ x ∈ outlineMarks, isLibraryChar x = false := by decide
  intro hm
  rw [marks c hm] at h
  cases h

variable {cs : List Char}

theorem no_underscore (h : snugBy isLibraryChar 0 cs = true) : '_' ∉ cs := fun hc => by
  rcases mem_of_snugBy hc h with h | h | h <;> revert h <;> decide

theorem snugBy_toUpper {c : Char} (h : snugBy isLibraryChar 0 (c :: cs) = true) :
    snugBy isLibraryChar 0 (c.toUpper :: cs) = true ∧ c.toNat < 128 ∧ isGap c.toUpper = isGap c := by
  have ascii : c.toNat < 128 := by
    rcases mem_of_snugBy List.mem_cons_self h with hc | hc | hc
    · omega
    · omega
    · exact of_decide_eq_true (Bool.and_eq_true_iff.mp hc).1
  have all : ∀ n < 128, ((Char.ofNat n).toUpper.toNat = 40 ↔ (Char.ofNat n).toNat = 40) ∧
      ((Char.ofNat n).toUpper.toNat = 41 ↔ (Char.ofNat n).toNat = 41) ∧
      isLibraryChar (Char.ofNat n).toUpper = isLibraryChar (Char.ofNat n) ∧
      isGap (Char.ofNat n).toUpper = isGap (Char.ofNat n) := by decide
  obtain ⟨hopen, hclose, hother, hgap⟩ := ascii_forall (q := fun c => (c.toUpper.toNat = 40 ↔ c.toNat = 40) ∧
    (c.toUpper.toNat = 41 ↔ c.toNat = 41) ∧ isLibraryChar c.toUpper = isLibraryChar c ∧
    isGap c.toUpper = isGap c) all c ascii
  refine ⟨?_, ascii, hgap⟩
  rw [snugBy] at h ⊢
  simpa only [hopen, hclose, hother] using h

/-- What a function of the library is called stays on its line, and does not start with a gap. -/
theorem functionName_inline {e : String × String} (he : e ∈ functionNames) :
    Inline (pascal e.2).toList ∧ Flush (pascal e.2) := by
  obtain ⟨hsnug, hstart⟩ := functionNames_snug e he
  have flush : Flush e.2 := fun c hc => by
    rw [hc] at hstart
    have gap : c = ' ' ∨ c = '\t' → (c.toNat != 9 && c.toNat != 32) = false := by
      rintro (rfl | rfl) <;> decide
    cases hg : isGap c with
    | false => rfl
    | true => rw [Option.all_some, gap (by simpa [isGap] using hg)] at hstart; cases hstart
  rcases pascal_cases (no_underscore hsnug) with hp | hp
  · rw [hp]
    exact ⟨.of_snugBy isLibraryChar_clear hsnug, flush⟩
  · rw [hp]
    unfold Text.capitalize
    cases hn : e.2.toList with
    | nil => exact ⟨.of_snugBy isLibraryChar_clear hsnug, flush⟩
    | cons c cs =>
      rw [hn] at hsnug
      obtain ⟨hupper, hsmall, hgap⟩ := snugBy_toUpper hsnug
      have form : Text.upperForm c = String.singleton c.toUpper := if_pos hsmall
      have text : (Text.upperForm c ++ String.ofList cs).toList = c.toUpper :: cs := by
        rw [form, String.toList_append, String.toList_singleton, String.toList_ofList]
        rfl
      refine ⟨?_, fun d hd => ?_⟩
      · dsimp only
        rw [text]
        exact .of_snugBy isLibraryChar_clear hupper
      · dsimp only at hd
        rw [text] at hd
        cases hd
        rw [hgap]
        exact flush c (by rw [hn]; rfl)

theorem callName_cases (caller : Ty) (h : FreeName n) :
    (∃ e ∈ functionNames, callName caller n = pascal e.2) ∨
      Over (fun c => Scan.isNamePart c = true) (callName caller n) := by
  unfold callName
  split
  · cases hl : functionNames.lookup n with
    | some text =>
      obtain ⟨k, hk⟩ := mem_of_lookup hl
      exact .inl ⟨_, hk, rfl⟩
    | none => exact .inr (nameParts_pascal h.identifier)
  · refine .inr (pascal_over namePart_caseClosed ?_)
    split
    · split
      · decide
      split
      · decide
      · exact h.identifier.letters
    · exact h.identifier.letters

/-! ## The dialect -/

theorem inlines (s : Settings) (t : ClassTable) : (dialect s).Inlines t where
  put h _ := put_prints h
  name role n h := by
    match role with
    | .singleton =>
      refine ⟨typeName s t (some n), fun p => ?_, (typeText_typeName h.typeText).inline⟩
      refine Serves.bindEq (r := typeName s t (some n)) (.look fun d ht _ => by rw [ht]) ?_
      exact put_prints (typeText_typeName h.typeText).inline.noBreak p
    | .property => exact ⟨_, put_prints (typeText_pascal h.identifier).inline.noBreak,
        (typeText_pascal h.identifier).inline⟩
    | .variable => exact ⟨_, put_prints (inline_variableName h).noBreak, inline_variableName h⟩
  callName caller n h := by
    rcases callName_cases caller h with ⟨e, he, htext⟩ | hover
    · show Inline (callName caller n).toList
      rw [htext]
      exact (functionName_inline he).1
    · exact Over.inline (hover.mono fun _ => typeChar_of_isNamePart)
  flush caller n h := by
    rcases callName_cases caller h with ⟨e, he, htext⟩ | hover
    · show Flush (callName caller n)
      rw [htext]
      exact (functionName_inline he).2
    · exact flush_of_nameParts hover

theorem behind (s : Settings) : (dialect s).Behind (writer s) where
  breakStatement := rfl
  continueStatement := rfl
  returnHead _ := rfl
  expr _ := rfl
  ifHead _ := rfl
  elifHead _ := rfl
  elseHead := rfl
  whileHead _ := rfl
  endStatement _ p _ := put_prints (by decide) p

variable {r : Request}

theorem head_prints (h : r.IsHead) : ∃ text, Prints t (serve s r) text ∧ Inline text.toList := by
  match r, h with
  | .forHead x type (.name role n), ⟨hx, htype, hn⟩ =>
    have before : "foreach(" ++ type ++ " " ++ x ++ " in " =
        "foreach" ++ "(" ++ (type ++ " " ++ x ++ " in ") := by
      rfl
    show ∃ text, Prints t ((dialect s).between _ _ _) text ∧ _
    rw [before]
    exact (inlines s t).between role hn (by decide)
      (((htype.append (by decide)).append hx.typeText).append (by decide))
  | .ifHead _, h | .elifHead _, h | .whileHead _, h | .elseHead, h => exact (behind s).head (inlines s t) h (by nofun)

/-! ## Writing -/

theorem put_serves (text : String) : Serves (put text) t p t
    { p with page := p.page ++ Page.indented p.level text } :=
  Serves.level.bindEq <| (Prints.write _ p).bind fun _ _ => .trace _

theorem openScope_serves : Serves openScope t p t
    { p with page := p.page ++ Page.indented p.level "\n\x7b", level := p.level + 1 } :=
  (Serves.trace _).bind fun _ _ => (put_serves _).bind fun _ _ =>
    .modify_pages (f := fun p : Pages State => { p with level := p.level + 1 })

theorem closeScope_serves : Serves closeScope t p t
    { p with page := p.page ++ Page.indented (p.level + -1) "\n\x7d", level := p.level + -1 } :=
  (Serves.trace _).bind fun _ _ =>
    (Serves.modify_pages (f := fun p : Pages State => { p with level := p.level + -1 })).bind fun _ _ => put_serves _

/-! ## The pages at a stage -/

/-- The number of braces that are open at a stage. -/
def depthAt (st : Stage) : Int := st.level + if st.classes.isEmpty then 0 else 1

/-- A sentence stands for a line with one pair of braces more around it than its indentation says. -/
abbrev Said (s : Settings) : Int × String → Row → Prop := Says (dialect s) fun r => r.indent + 1

/-- What holds of the pages at a stage. -/
structure Held (s : Settings) (st : Stage) (p : Pages State) : Prop where
  level : p.level = depthAt st
  /-- No assignment waits for a `_ready` method. -/
  onready : p.own.onready = {}
  follows : StandsFor (Said s) (fun _ => true) st.inBody (depthAt st) st.found p

theorem Held.enter (h : Held s st p) (hbody : st'.inBody = st.inBody) (hfound : st'.found = st.found)
    (hdepth : depthAt st' = depthAt st) (n : String) :
    Held s st' { p with own := { p.own with className := n } } := by
  refine ⟨h.level.trans hdepth.symm, h.onready, ?_⟩
  rw [hbody, hfound, hdepth]
  exact h.follows.congr rfl rfl

theorem Held.breaks (h : Held s st p) (k : Nat) : Answers (writer s) (.put (Text.times "\n" k)) t p (Held s st) :=
  ⟨_, put_serves _, h.level, h.onready, h.follows.breaks rfl rfl⟩

theorem Held.close (h : Held s st p) (hl : 0 < st.level) :
    Answers (writer s) .closeScope t p (Held s { st with level := st.level - 1 }) := by
  have depth : depthAt { st with level := st.level - 1 } = depthAt st - 1 := by
    unfold depthAt
    dsimp only
    omega
  have pos : 0 < depthAt st := by
    unfold depthAt
    split <;> omega
  refine ⟨_, closeScope_serves, ?_, h.onready, ?_⟩
  · show p.level + -1 = _
    rw [h.level]
    omega
  · rw [depth]
    exact h.follows.close pos rfl rfl

theorem depthAt_succ (h : st'.level = st.level + 1) (hc : st'.classes.isEmpty = st.classes.isEmpty) :
    depthAt st' = depthAt st + 1 := by
  unfold depthAt
  rw [hc]
  omega

theorem Held.body (h : Held s st p) (hbody : st.inBody = false) :
    Answers (writer s) .openPage t p fun p' => Answers (writer s) .openScope t p'
      (Held s { st with level := st.level + 1, inBody := true }) := by
  refine ⟨_, .modify_pages (f := fun p : Pages State =>
    { p with page := "", below := p.page :: p.below }), _, openScope_serves, ?_⟩
  have depth : depthAt { st with level := st.level + 1, inBody := true } = depthAt st + 1 := depthAt_succ rfl rfl
  have follows := h.follows
  rw [hbody] at follows
  refine ⟨?_, h.onready, ?_⟩
  · show p.level + 1 = _
    rw [h.level, depth]
  · rw [depth]
    exact follows.body String.empty_append rfl

theorem Held.head (h : Held s st p) (hbody : st.inBody = true) (hr : r.IsHead) :
    Answers (writer s) r t p fun p' => Answers (writer s) .openScope t p'
      (Held s { st with level := st.level + 1, inBody := true }) := by
  obtain ⟨text, hprints, hline⟩ := head_prints hr
  refine ⟨_, hprints p, _, openScope_serves, ?_⟩
  have depth : depthAt { st with level := st.level + 1, inBody := true } = depthAt st + 1 := depthAt_succ rfl rfl
  have follows := h.follows
  rw [hbody] at follows
  refine ⟨?_, h.onready, ?_⟩
  · show p.level + 1 = _
    rw [h.level, depth]
  · rw [depth]
    exact follows.block hline rfl rfl

theorem Held.simple (h : Held s st p) (hcl : st.classes.isEmpty = false) (c : Nat) {x : Simple}
    (hpass : x ≠ .pass) (hx : (Line.simple x).Proper) :
    AnswersAll (writer s) (x.requests t) t p
      (Held s { st with found := st.found ++ [⟨st.level, c, .simple x⟩] }) := by
  have depth : depthAt st = st.level + 1 := by
    unfold depthAt
    rw [hcl]
    rfl
  refine (behind s).statement (inlines s t) (by rw [h.level]; omega) hx hpass fun text ht => ?_
  have said : Said s (depthAt st, text) ⟨st.level, c, .simple x⟩ := ⟨depth, x, rfl, ht⟩
  obtain ⟨hline, hstart⟩ := (inlines s t).spellings hx ht
  exact ⟨h.level, h.onready, h.follows.sentence hline hstart rfl said rfl rfl⟩

/-! ## Methods -/

theorem exposure_serves (hn : Scan.IsIdentifier n) (override : Bool) :
    ∃ text, Serves (exposure n override) t p t p (· = text) ∧ TypeText text := by
  cases hc : n.toList with
  | nil =>
    have start := hn.start
    rw [hc] at start
    cases start
  | cons c cs =>
    unfold exposure
    rw [hc]
    dsimp only
    split
    · exact ⟨"protected", .pure rfl, by decide⟩
    · exact ⟨"public", .pure rfl, by decide⟩

theorem method_serves {code : String} {returns : Ty} (hn : FreeName n)
    (hr : returns = none ∨ returns = some "int") (hcode : ∃ cs, code.toList = '\n' :: cs)
    (hp : p.own.onready = {}) (override : Bool) :
    ∃ head, Inline head.toList ∧ Serves (method s { name := n, returns, code, override }) t p t
      { p with page := p.page ++ head ++ code } := by
  obtain ⟨exposed, hexposed, hexposedText⟩ := exposure_serves hn.identifier override
  have type : TypeText (typeName s t returns) := by
    rcases hr with rfl | rfl
    · show TypeText "void"
      decide
    · exact typeText_typeName (by decide)
  have name := typeText_pascal hn.identifier
  let before := exposed ++ " " ++ (if override then "override " else "") ++ "" ++ typeName s t returns ++
    " " ++ pascal n
  have beforeText : TypeText before := by
    refine ((((hexposedText.append (by decide)).append ?_).append .empty).append type).append
      (by decide) |>.append name
    cases override <;> decide
  have code_ne : code.isEmpty = false := by
    obtain ⟨cs, hcs⟩ := hcode
    cases hempty : code.isEmpty with
    | false => rfl
    | true =>
      rw [String.isEmpty_iff.mp hempty] at hcs
      cases hcs
  refine ⟨before ++ "(" ++ "" ++ ")", .enclose beforeText Inline.nil.enclosed, ?_⟩
  have read : Serves (methodCode { name := n, returns, code, override }) t p t p (· = code) := by
    unfold methodCode
    rw [if_neg (by simp [code_ne])]
    exact .pure rfl
  refine read.bindEq <| hexposed.bindEq <|
    Serves.bindEq (.look fun d ht _ => by rw [ht]) ?_
  have opening : NoBreak (before ++ "(") := beforeText.inline.noBreak.append nofun
  refine (put_prints opening p).bind fun _ _ => ?_
  refine Serves.bind (Q := fun _ => True) (.pure trivial) fun _ _ => ?_
  refine (put_prints (by decide) _).bind fun _ _ => ?_
  refine Serves.bind (Q := fun own => own.onready = {}) (.look fun d _ hd => by rw [hd]; exact hp) fun own hown => ?_
  have none : (if n = "_ready" then own.onready.find? own.className else none) = none := by
    rw [hown]
    split <;> rfl
  rw [none]
  have written := Prints.write (t := t) code { p with page := p.page ++ (before ++ "(") ++ ")" }
  have text : p.page ++ (before ++ "(" ++ "" ++ ")") ++ code =
      p.page ++ (before ++ "(") ++ ")" ++ code := by
    simp only [String.append_empty, String.append_assoc]
  rw [text]
  exact written

theorem Held.method (h : Held s st p) (hbody : st.inBody = true) {returns : Ty}
    (hn : FreeName n) (hr : returns = none ∨ returns = some "int") :
    ∃ code p1, Serves (writer s).takePage t p t p1 (· = code) ∧ ∀ (override : Bool) (t2 : ClassTable),
      ∃ p2, Serves ((writer s).serve (.method { name := n, returns, code, override })) t2 p1 t2 p2 ∧
      Held s { st with inBody := false } p2 := by
  have follows := h.follows
  rw [hbody] at follows
  obtain ⟨hstart, base, hbelow, hput⟩ := follows.take
  refine ⟨p.page, _, .takePage hbelow, fun override t2 => ?_⟩
  obtain ⟨head, hhead, hserve⟩ := method_serves (p := { p with page := base, below := [] })
    hn hr hstart h.onready override
  exact ⟨_, hserve, h.level, h.onready, hput hhead rfl rfl⟩

/-! ## Classes -/

theorem Held.title (h : Held s st p) (hn : TypeText n) {st' : Stage}
    (hbody : st'.inBody = st.inBody) (hfound : st'.found = st.found) (hdepth : depthAt st' = depthAt st + 1) :
    ∃ p', Serves (do
      put ("public partial class " ++ n ++ " : " ++ (← typeText s (some "Object")))
      openScope
      put "\n") t p t p' ∧ Held s st' p' := by
  have base : TypeText (typeName s t (some "Object")) := typeText_typeName (by decide)
  let title := "public partial class " ++ n ++ " : " ++ typeName s t (some "Object")
  have line : Inline title.toList := Over.inline <|
    Over.append (Over.append (Over.append (by decide) hn) (by decide)) base
  refine ⟨_, Serves.bindEq (r := typeName s t (some "Object")) (.look fun d ht _ => by rw [ht]) <|
    (put_prints line.noBreak p).bind fun _ _ => openScope_serves.bind fun _ _ => put_serves "\n", ?_⟩
  refine ⟨?_, h.onready, ?_⟩
  · show p.level + 1 = _
    rw [h.level, hdepth]
  · rw [hbody, hfound, hdepth]
    have opened := h.follows.block line
      (q := { p with page := p.page ++ title ++ Page.indented p.level "\n\x7b" }) rfl rfl
    exact opened.breaks (show _ = _ ++ Page.indented (p.level + 1) (Text.times "\n" 1) from rfl) rfl

theorem Held.defineClass (h : Held s st p) (hn : TypeText n) (isMain : Bool) {st' : Stage}
    (hbody : st'.inBody = st.inBody) (hfound : st'.found = st.found) (hdepth : depthAt st' = depthAt st + 1) :
    Answers (writer s) (.defineClass n "Object" false isMain) t p (Held s st') := by
  cases isMain with
  | false => exact h.title hn hbody hfound hdepth
  | true =>
    have marked : Held s st { p with page := p.page ++ Page.indented p.level "[GlobalClass]\n" } := by
      refine ⟨h.level, h.onready, h.follows.silent _ (fun {o found} hr => ?_) rfl rfl⟩
      have line : Inline "[GlobalClass]".toList := .of_snug rfl
      rw [show "[GlobalClass]\n" = "[GlobalClass]" ++ "\n" from rfl, toList_indented_line _ (by decide),
        feedAll_append, line o (Int.le_of_eq hr.parens.symm), feedAll_break]
      exact ⟨hr.depth, hr.low, hr.parens, by simp [isGap], hr.found⟩
    obtain ⟨p', hserve, hheld⟩ := marked.title hn hbody hfound hdepth
    exact ⟨p', (put_serves _).bind fun _ _ => hserve, hheld⟩

theorem enterClass_serves (n : String) : Serves ((writer s).serve (.enterClass n)) t p t
    { p with own := { p.own with className := n } } :=
  .modify_pages (f := fun p : Pages State => { p with own := { p.own with className := n } })

theorem endClass_serves (h : p.own.onready = {}) (n : String) : Serves (endClass s n) t p t p := by
  refine Serves.bind (Q := fun own => own.onready = {}) (.look fun d _ hd => by rw [hd]; exact h) fun own hown => ?_
  rw [hown]
  exact .pure trivial

/-! ## Scripts -/

/-- What holds of the code of a script with the statements `rows`. -/
structure Kept (s : Settings) (rows : List Row) (code : String) : Prop where
  braced : Braced code
  sentences : ∃ found, (outline code).found =
      [(0, "using Godot"), (0, "using Godot.Collections")] ++ found ∧
    List.Forall₂ (Said s) found rows

theorem Held.finish {rows : List Row} (h : Held s { classes := [n], found := rows } p) :
    ∃ p', Serves ((writer s).serve .endScript) t p t p' ∧ Kept s rows p'.own.result := by
  obtain ⟨o, found, hsheet, hrests, hall⟩ := h.follows
  have depth : depthAt { classes := [n], found := rows } = 1 := rfl
  rw [List.filter_true] at hall
  rw [depth] at hrests
  have level : p.level = 1 := h.level
  cases hsheet with
  | plain hbelow =>
    let page := p.page ++ Page.indented (p.level + -1) "\n\x7d"
    let result := scriptHeader ++ tidy maxLineEnds page
    refine ⟨{ p with page := page, level := p.level + -1, own := { p.own with result := result } }, ?_, ?_⟩
    · refine Serves.bindEq (.look fun d _ hd => by rw [hd]) ?_
      refine (endClass_serves h.onready _).bind fun _ _ => ?_
      refine (Serves.flush hbelow).bind fun _ _ => ?_
      refine Serves.bindEq (r := 1) (.look fun d _ hd => by rw [hd]; exact level) ?_
      have closing : Serves (closeScopes 1) t p t { p with page := page, level := p.level + -1 } :=
        closeScope_serves.bind fun _ _ => .pure trivial
      have look : Serves (get : SharpM (Desk (Pages State))) t { p with page := page, level := p.level + -1 } t
          { p with page := page, level := p.level + -1 } (·.pages.page = page) :=
        .look (f := id) fun d _ hd => by rw [id, hd]
      refine closing.bind fun _ _ => look.bind fun d hd => ?_
      rw [hd]
      exact .modify_pages (f := fun p : Pages State =>
        { p with own := { p.own with result := scriptHeader ++ tidy maxLineEnds page } })
    · have closed : (outline page).Rests 0 found := by
        rw [outline_append]
        exact hrests.close (by decide) _
      obtain ⟨depths, lows, founds⟩ := closed.tidied maxLineEnds (by decide)
      have written : outline result = (outline (tidy maxLineEnds page)).under (outline scriptHeader) := by
        have start : outline scriptHeader = ({} : Outline).under (outline scriptHeader) := by
          decide +kernel
        rw [outline_append]
        conv_lhs => rw [start]
        exact feedAll_under {} ..
      have header : outline scriptHeader =
          ⟨0, 0, 0, [], [(0, "using Godot"), (0, "using Godot.Collections")]⟩ := by decide +kernel
      refine ⟨.of_outline ?_ ?_, found, ?_, hall⟩
      · show (outline result).depth = 0
        rw [written, header]
        show 0 + (outline (tidy maxLineEnds page)).depth = 0
        rw [depths]
        rfl
      · show 0 ≤ (outline result).low
        rw [written, header]
        show 0 ≤ min 0 (0 + (outline (tidy maxLineEnds page)).low)
        omega
      · show (outline result).found = _
        rw [written, header]
        show _ ++ (outline (tidy maxLineEnds page)).found.map (fun e => (0 + e.1, e.2)) = _
        rw [founds]
        simp

/-- **C# keeps the blocks of a script.** -/
def keeper (s : Settings) : Keeper (writer s) where
  Holds st _ := Held s st
  Done rows p := Kept s rows p.own.result
  breaks h k := h.breaks k
  close h hl := h.close hl
  body h hbody _ := h.body hbody
  head h hbody _ hq := h.head hbody hq
  simple h _ hopen _ hpass hx := h.simple (List.isEmpty_eq_false_iff.mpr (List.length_pos_iff.mp hopen)) _ hpass hx
  method {st} t p c cs n returns h hbody hclasses _ hknown hn hr := by
    obtain ⟨code, p1, htake, hmethod⟩ := h.method (t := t) hbody hn hr
    refine ⟨code, p1, htake, fun override => ?_⟩
    obtain ⟨p2, hserve, hheld⟩ := hmethod override
      (t.update c fun info => { info with methods := info.methods.put n returns })
    exact ⟨_, p2, hserve, t.kin_methods hknown fun m => m.put n returns, hheld⟩
  main {t} p n h hn _ := by
    have entered : Held s {} { p with own := { p.own with className := n } } := h.enter rfl rfl rfl n
    exact ⟨_, enterClass_serves n, entered.defineClass hn.typeText true rfl rfl rfl⟩
  inner {st} t p n h _ hlevel hn _ _ := by
    have entered : Held s st { p with own := { p.own with className := n } } := h.enter rfl rfl rfl n
    refine ⟨_, enterClass_serves n, entered.defineClass hn.typeText false rfl rfl ?_⟩
    refine depthAt_succ rfl ?_
    cases hc : st.classes with
    | nil => rw [hc] at hlevel; cases hlevel
    | cons => rfl
  leave {st} t p c d cs h _ hclasses _ _ := by
    refine ⟨t, p, endClass_serves h.onready c, ⟨fun _ => rfl, id⟩, _, enterClass_serves d, ?_⟩
    show Held s { st with classes := d :: cs } _
    refine h.enter ?_ ?_ ?_ d
    · rfl
    · rfl
    unfold depthAt
    rw [hclasses]
    rfl
  finish h _ := by
    obtain ⟨p', hserve, hkept⟩ := h.finish
    exact ⟨_, p', hserve, hkept⟩

theorem start_held (s : Settings) : Held s {} start := ⟨rfl, rfl, .start⟩

end GdScribe.CSharp
