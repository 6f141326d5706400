import GdScribe.Proofs.Blocks.Drafts

/-!
# Blocks in C++

The functions of all classes stand next to each other in the implementation, so that only the blocks
inside a function have braces there. The bindings of a class are one more function.

* `CPlusPlus.Kept`: what holds of a finished script.

Main statement: `CPlusPlus.keeper`.
-/

namespace GdScribe.CPlusPlus

open Target Outline List
open Read (Serves)

variable {s : Settings} {t t' : ClassTable} {p q : Pages State} {st st' : Stage} {c : String}
  {cs : List String}

/-! ## Bindings -/

/-- A text that brings bindings only. -/
def Binds (text : String) : Prop :=
  ∀ (o : Outline) (depth : Int) (found : List (Int × String)), 0 ≤ depth → o.Rests depth found →
    ∃ more, (∀ e ∈ more, isBinding e.2 = true) ∧ (o.feedAll text.toList).Rests depth (found ++ more)

theorem Binds.empty : Binds "" := fun _ _ _ _ hr => ⟨[], nofun, by rwa [append_nil]⟩

theorem Binds.append {a b : String} (ha : Binds a) (hb : Binds b) : Binds (a ++ b) := by
  intro o depth found hd hr
  obtain ⟨more, hmore, hr⟩ := ha o depth found hd hr
  obtain ⟨more', hmore', hr⟩ := hb _ depth _ hd hr
  refine ⟨more ++ more', forall_mem_append.mpr ⟨hmore, hmore'⟩, ?_⟩
  rw [String.toList_append, feedAll_append, ← append_assoc]
  exact hr

theorem Binds.join {l : List String} (h : ∀ x ∈ l, Binds x) : Binds (String.join l) := by
  induction l with
  | nil => exact .empty
  | cons x xs ih =>
    obtain ⟨hx, hxs⟩ := forall_mem_cons.mp h
    rw [String.join_cons]
    exact hx.append (ih hxs)

/-- The binding of a method without parameters. -/
def bindingLine (c n : String) : String :=
  if Text.startsWith n "_" then ""
  else "\tClassDB::bind_method(D_METHOD(\"" ++ n ++ "\"" ++ "" ++ "), &" ++ c ++ "::" ++ n ++ ");\n"

variable {n : String}

theorem binds_line (hn : TypeText n) (hc : TypeText c) : Binds (bindingLine c n) := by
  unfold bindingLine
  split
  · exact .empty
  let text := "ClassDB::bind_method" ++ "(" ++ ("D_METHOD" ++ "(" ++ ("\"" ++ n ++ "\"") ++ ")" ++
    (", &" ++ c ++ "::" ++ n)) ++ ")"
  have quoted : TypeText ("\"" ++ n ++ "\"") := (Over.append (by decide) hn).append (by decide)
  have place : TypeText (", &" ++ c ++ "::" ++ n) :=
    ((Over.append (by decide) hc).append (by decide)).append hn
  have inner := Inline.append_string (.enclose (w := "D_METHOD") (by decide) quoted.inline.enclosed) place.inline
  have line : Inline text.toList := .enclose (by decide) inner.enclosed
  obtain ⟨rest, hrest⟩ : ∃ rest, text.toList = "ClassDB::".toList ++ rest := by
    simp only [text, String.toList_append]
    exact ⟨_, rfl⟩
  have start : text.toList.head?.any (fun c => !isGap c) = true := by
    rw [hrest]
    rfl
  have binding : isBinding text = true := isPrefixOf_iff_prefix.mpr ⟨rest, hrest.symm⟩
  intro o depth found _ hr
  refine ⟨[(depth, text)], by simpa using binding, ?_⟩
  have fed := (hr.tab.sentence line start).newline
  simpa [text, feedAll_append, feedAll_cons] using fed

theorem classInfo_serves (hc : p.own.className = c) : Serves classInfo t p t p (· = t.info c) :=
  .look (f := fun d : Desk (Pages State) => d.classes.info d.pages.own.className) fun _ ht hp => by rw [ht, hp, hc]

variable (h : Ready (c :: cs) t p.own)

include h

theorem methodBinding_serves
    (hn : n ∈ (t.info c).methods.keys) : Serves (methodBinding n) t p t p (· = bindingLine c n) := by
  unfold methodBinding bindingLine
  split
  · exact .pure rfl
  · refine (draft_serves h).bind fun d hd => ?_
    rw [(hd.methods n hn).2]
    refine own_look.bindEq (.pure ?_)
    rw [h.className]
    rfl

/-- The code that binds a class has braces of its own around its bindings. -/
theorem bindings_serves : ∃ code, code ≠ "" ∧
    (∀ head : String, Inline head.toList → Binds (head ++ code)) ∧
    Serves (bindings s) t p t p (· = code) := by
  let lines := (t.info c).methods.keys.map (bindingLine c)
  refine ⟨" \x7b\n" ++ String.join lines ++ "" ++ "\n" ++ "" ++ "" ++ "\x7d\n", by simp, ?_, ?_⟩
  · intro head hhead o depth found hpos hr
    have line : Inline (head.toList ++ [' ']) := hhead.append (.of_clear (by decide))
    have bound : Binds (String.join lines) := .join fun x hx => by
      obtain ⟨n, hn, rfl⟩ := mem_map.mp hx
      exact binds_line (h.draft.methods n hn).1 (h.drafts c mem_cons_self).1
    obtain ⟨more, hmore, hbound⟩ := bound _ _ _ (by omega) (hr.brace line).newline
    have closed := (hbound.newline.unbrace (by omega)).newline
    rw [Int.add_sub_cancel] at closed
    refine ⟨more, hmore, ?_⟩
    simpa [feedAll_append, feedAll_cons] using closed
  · unfold bindings
    refine (draft_serves h).bind fun d hd => ?_
    rw [hd.markers]
    refine Serves.bindEq (.pure rfl) <| (draft_serves h).bind fun d hd => ?_
    rw [hd.signals]
    refine (classInfo_serves h.className).bindEq ?_
    rw [hd.enums]
    exact (Serves.mapM fun n hn => methodBinding_serves h hn).bindEq (.pure rfl)

/-! ## The end of a class -/

theorem addLastMethods_serves (hc : t.contains c = true) (hl : p.level = 0) :
    ∃ text t' o, Binds text ∧ ClassTable.Kin t t' ∧ Ready (c :: cs) t' o ∧
      Serves (addLastMethods s) t p t' { p with page := p.page ++ text, own := o } := by
  cases hm : (t.info c).methods.isEmpty with
  | true =>
    refine ⟨"", t, p.own, .empty, ⟨fun _ => rfl, id⟩, h, ?_⟩
    rw [String.append_empty]
    refine (draft_serves h).bind fun d hd => ?_
    rw [hd.onready]
    refine (draft_serves h).bind fun d hd => (classInfo_serves h.className).bindEq ?_
    rw [hd.markers, hd.signals, hm]
    exact .pure trivial
  | false =>
    obtain ⟨code, hcode, hbinds, hserve⟩ := bindings_serves h
    have spaced : Ready (c :: cs) t (p.own.redraft fun d => d.toPublic.add "\n") :=
      h.redraft (fun _ _ => rfl) fun hd => by
        rw [hd.toPublic]
        exact hd.add (by decide)
    have clear : NoBrace "\n" := by decide
    have ended := spaced.outside (noBrace_indented p.level clear)
    obtain ⟨head, o, hhead, hready, hmethod⟩ := method_serves
      (p := { p with own := State.outside _ (Page.indented p.level "\n") })
      (n := "_bind_methods") (r := none) ended (.refl ..) (by decide) nofun hcode true false
    refine ⟨head ++ code, _, o, hbinds head hhead, t.kin_methods hc fun m => m.put "_bind_methods" none,
      hready, ?_⟩
    refine (draft_serves h).bind fun d hd => ?_
    rw [hd.onready]
    refine (draft_serves h).bind fun d hd => (classInfo_serves h.className).bindEq ?_
    rw [hd.markers, hm]
    refine hserve.bindEq <| (own_serves _).bind fun _ _ => ?_
    refine (put_outside "\n" rfl (by exact Int.le_of_eq hl)).bind fun _ _ => ?_
    rw [← String.append_assoc]
    exact hmethod

/-- **A class ends** with the bindings of its methods. -/
theorem endClass_serves (hc : t.contains c = true) (hl : p.level = 0) :
    ∃ text t' o, Binds text ∧ ClassTable.Kin t t' ∧ Ready (c :: cs) t' o ∧
      Serves (endClass s) t p t' { p with page := p.page ++ text, own := o.closed } := by
  obtain ⟨text, t', o, binds, kin, ready, served⟩ := addLastMethods_serves h hc hl (s := s)
  have none (n : String) : enumCasts s n {} = "" := by
    simp [enumCasts, Text.distinctSorted, Table.values]
  refine ⟨text, t', o, binds, kin, ready, served.bind fun _ _ => ?_⟩
  refine draft_look.bindEq <| (classInfo_serves ready.className).bindEq ?_
  rw [ready.draft.enums, none]
  simp only [String.append_empty]
  exact own_serves _

omit h

/-! ## The pages at a stage -/

/-- The number of braces that are open at a stage. -/
def depthAt (st : Stage) : Int := ((st.level - (st.classes.length - 1) : Nat) : Int)

/-- A sentence stands for a line with as many braces around it as its indentation says, the classes
left out. -/
abbrev Said (s : Settings) : Int × String → Row → Prop :=
  Says (dialect s) fun r => ((r.indent - r.nesting : Nat) : Int)

/-- Whether a sentence is no binding of a method. -/
def isStatement (e : Int × String) : Bool := !isBinding e.2

/-- What holds of the pages at a stage. -/
structure Held (s : Settings) (st : Stage) (t : ClassTable) (p : Pages State) : Prop where
  level : p.level = depthAt st
  ready : Ready st.classes t p.own
  follows : StandsFor (Said s) isStatement st.inBody (depthAt st) st.found p

namespace Held

theorem breaks (h : Held s st t p) (k : Nat) : Answers (writer s) (.put (Text.times "\n" k)) t p (Held s st t) := by
  by_cases hl : 0 < p.level
  · exact ⟨_, put_serves (.inr hl), h.level, h.ready, h.follows.breaks rfl rfl⟩
  · have ends : (Text.times "\n" k).toList.all (· == '\n') = true := by
      rw [toList_times (c := '\n') rfl]
      simp
    have clear : NoBrace (Text.times "\n" k) := Over.times (by decide) k
    exact ⟨_, put_outside _ ends (by omega), h.level, h.ready.outside (noBrace_indented _ clear),
      h.follows.congr rfl rfl⟩

theorem close (h : Held s st t p) (hl : 0 < st.level) :
    Answers (writer s) .closeScope t p (Held s { st with level := st.level - 1 } t) := by
  have level := h.level
  by_cases hz : p.level = 0
  · have depth : depthAt { st with level := st.level - 1 } = depthAt st := by
      unfold depthAt at level ⊢
      dsimp only
      omega
    refine ⟨p, closeScope_serves_none hz, level.trans depth.symm, h.ready, ?_⟩
    rw [depth]
    exact h.follows
  · have depth : depthAt { st with level := st.level - 1 } = depthAt st - 1 := by
      unfold depthAt at level ⊢
      dsimp only
      omega
    have pos : 0 < depthAt st := by
      unfold depthAt at level ⊢
      omega
    refine ⟨_, closeScope_serves hz, ?_, h.ready, ?_⟩
    · show p.level + -1 = _
      rw [level]
      omega
    · rw [depth]
      exact h.follows.close pos rfl rfl

theorem depthAt_succ (hl : st.classes.length ≤ st.level + 1) :
    depthAt { st with level := st.level + 1, inBody := true } = depthAt st + 1 := by
  unfold depthAt
  dsimp only
  omega

theorem body (h : Held s st t p) (hbody : st.inBody = false) (hl : st.classes.length = st.level + 1) :
    Answers (writer s) .openPage t p fun p' => Answers (writer s) .openScope t p'
      (Held s { st with level := st.level + 1, inBody := true } t) := by
  refine ⟨_, .modify_pages (f := fun p : Pages State =>
    { p with page := "", below := p.page :: p.below }), _, openScope_serves, ?_⟩
  have depth := depthAt_succ (le_of_eq hl)
  have follows := h.follows
  rw [hbody] at follows
  refine ⟨?_, h.ready, ?_⟩
  · show p.level + 1 = _
    rw [h.level, depth]
  · rw [depth]
    exact follows.body String.empty_append rfl

theorem head (h : Held s st t p) (hbody : st.inBody = true) (hl : st.classes.length ≤ st.level)
    {r : Request} (hr : r.IsHead) :
    Answers (writer s) r t p fun p' => Answers (writer s) .openScope t p'
      (Held s { st with level := st.level + 1, inBody := true } t) := by
  obtain ⟨text, uses, hline, huses, hserve⟩ := head_serves hr
  refine ⟨_, hserve, _, openScope_serves, ?_⟩
  have depth := depthAt_succ (Nat.le_succ_of_le hl)
  have follows := h.follows
  rw [hbody] at follows
  refine ⟨?_, h.ready.use huses, ?_⟩
  · show p.level + 1 = _
    rw [h.level, depth]
  · rw [depth]
    exact follows.block hline rfl rfl

theorem simple (h : Held s st t p) (hopen : 0 < st.classes.length) (hl : st.classes.length ≤ st.level)
    {x : Simple} (hpass : x ≠ .pass) (hx : (Line.simple x).Proper) :
    AnswersAll (writer s) (x.requests t) t p
      (Held s { st with found := st.found ++ [⟨st.level, st.classes.length - 1, .simple x⟩] } t) := by
  have pos : 0 < depthAt st := by
    unfold depthAt
    omega
  refine (behind s).statement (inlines s t) (by rw [h.level]; exact pos) hx hpass fun text ht => ?_
  have said : Said s (depthAt st, text) ⟨st.level, st.classes.length - 1, .simple x⟩ := ⟨rfl, x, rfl, ht⟩
  have statement : isStatement (depthAt st, text) = true := by
    rw [isStatement, spellings_not_binding hx ht]
    rfl
  obtain ⟨hline, hstart⟩ := (inlines s t).spellings hx ht
  exact ⟨h.level, h.ready, h.follows.sentence hline hstart statement said rfl rfl⟩

theorem method (h : Held s st t p) (hbody : st.inBody = true) (hst : st.classes = c :: cs)
    (hc : t.contains c = true) {returns : Ty} (hn : FreeName n) (hr : returns = none ∨ returns = some "int") :
    ∃ code p1, Serves (writer s).takePage t p t p1 (· = code) ∧ ∀ override, ∃ t2 p2,
      Serves ((writer s).serve (.method { name := n, returns, code, override }))
        (t.update c fun info => { info with methods := info.methods.put n returns }) p1 t2 p2 ∧
      ClassTable.Kin t t2 ∧ Held s { st with inBody := false } t2 p2 := by
  have follows := h.follows
  rw [hbody] at follows
  obtain ⟨⟨ds, hstart⟩, base, hbelow, hput⟩ := follows.take
  have ready := h.ready
  rw [hst] at ready
  have code : p.page ≠ "" := by
    intro he
    rw [he] at hstart
    cases hstart
  have types : ∀ u, returns = some u → TypeText u := by
    rintro u rfl
    rcases hr with hr | hr <;> cases hr
    decide
  refine ⟨p.page, _, .takePage hbelow, fun override => ?_⟩
  obtain ⟨head, o, hhead, hready, hserve⟩ := method_serves (p := { p with page := base, below := [] })
    ready ((Adds.refl c n t).update returns) hn.typeText types code false override
  have kin := t.kin_methods hc fun m => m.put n returns
  have again := ClassTable.kin_methods _ ((kin.contains c).trans hc) fun m => m.put n returns
  refine ⟨_, _, hserve, kin.trans again, h.level, ?_, hput hhead rfl rfl⟩
  rw [hst]
  exact hready

theorem enterClass_serves (n : String) : Serves ((writer s).serve (.enterClass n)) t p t
    { p with own := { p.own with className := n } } :=
  own_serves fun o => { o with className := n }

theorem define (h : Held s st t p) (hn : TypeText n) (hnew : t.contains n = false)
    (hbody : st'.inBody = st.inBody) (hfound : st'.found = st.found) (hdepth : depthAt st' = depthAt st)
    (hclasses : st'.classes = n :: st.classes) (isMain : Bool) :
    Answers (writer s) (.enterClass n) (t.declare n "Object") p fun p' =>
      Answers (writer s) (.defineClass n "Object" false isMain) (t.declare n "Object") p'
        (Held s st' (t.declare n "Object")) := by
  obtain ⟨o, hready, hserve⟩ := defineClass_serves (u := t.declare n "Object") h.ready hn hnew
  refine ⟨_, enterClass_serves n, _, hserve, h.level.trans hdepth.symm, ?_, ?_⟩
  · rw [hclasses]
    exact hready
  · rw [hbody, hfound, hdepth]
    exact h.follows.congr rfl rfl

theorem leave (h : Held s st t p) (hst : st.classes = c :: cs) (hl : st.level ≤ cs.length)
    (hc : t.contains c = true) :
    ∃ t' p' o, Serves (endClass s) t p t' p' ∧ ClassTable.Kin t t' ∧
      Ready (c :: cs) t' o ∧ p'.level = 0 ∧ p'.own = o.closed ∧
      StandsFor (Said s) isStatement st.inBody 0 st.found p' := by
  have depth : depthAt st = 0 := by
    unfold depthAt
    rw [hst, length_cons]
    omega
  have ready := h.ready
  rw [hst] at ready
  have follows := h.follows
  rw [depth] at follows
  obtain ⟨text, t', o, hbinds, hkin, hready, hserve⟩ := endClass_serves ready hc (h.level.trans depth)
  refine ⟨t', _, o, hserve, hkin, hready, h.level.trans depth, rfl, ?_⟩
  have all : StandsFor (Said s) isStatement st.inBody 0 (st.found ++ []) { p with page := p.page ++ text } := by
    refine follows.add text (fun {o found} hr => ?_) rfl rfl
    obtain ⟨more, hmore, hrests⟩ := hbinds o 0 found (Int.le_refl 0) hr
    have none : more.filter isStatement = [] := by
      rw [filter_eq_nil_iff]
      intro e he
      rw [isStatement, hmore e he]
      decide
    exact ⟨more, by rw [none]; exact .nil, hrests⟩
  rw [append_nil] at all
  exact all.congr rfl rfl

end Held

/-! ## Scripts -/

theorem typeText_snake (h : TypeText n) : TypeText (snake n) := by
  refine typeChar_caseClosed.lowered ?_
  have all (cs : List Char) (hcs : ∀ c ∈ cs, TypeChar c) : ∀ acc : String, TypeText acc →
      TypeText (cs.foldl (fun (acc : String) (c : Char) =>
        if c.isUpper ∧ ¬ acc.isEmpty then (acc.push '_').push c else acc.push c) acc) := by
    induction cs with
    | nil => exact fun _ hacc => hacc
    | cons c cs ih =>
      intro acc hacc
      have push {acc : String} {c : Char} (hacc : TypeText acc) (hc : TypeChar c) : TypeText (acc.push c) := by
        intro d hd
        rw [String.toList_push, mem_append, mem_singleton] at hd
        rcases hd with hd | rfl
        · exact hacc d hd
        · exact hc
      refine ih (fun d hd => hcs d (mem_cons_of_mem c hd)) _ ?_
      have hc := hcs c mem_cons_self
      dsimp only
      split
      · exact push (push hacc (by decide)) hc
      · exact push hacc hc
  exact all n.toList h "" .empty

theorem typeText_includeLine (h : TypeText n) : TypeText (includeLine n) := by
  refine (Over.append (by decide) ?_).append (by decide)
  exact ((typeText_snake h).replaceAll (by decide) (by decide)).replaceAll (by decide) nofun

theorem headerText_braced {o : State} (hu : ∀ u ∈ o.used, TypeText u) (hs : TypeText o.scriptName)
    (hd : Lifts 0 o.declarations.toList) : Braced (headerText o) := by
  have includes : NoBrace (String.intercalate "\n" ((Text.distinctSorted o.used).map includeLine) ++ "\n") := by
    refine (Over.intercalate (by decide) fun x hx => ?_).append (by decide)
    obtain ⟨u, hmem, rfl⟩ := mem_map.mp hx
    have used : u ∈ o.used := by
      unfold Text.distinctSorted at hmem
      rw [mem_eraseDups, mem_mergeSort] at hmem
      exact hmem
    exact TypeText.noBrace (typeText_includeLine (hu u used))
  have form : NoBrace headerForm :=
    ((Over.ofList (by decide +kernel)).append (.ofList (by decide +kernel))).append (.ofList (by decide +kernel))
  have named : NoBrace (Text.replaceAll headerForm "__CLASS__" (Text.upper o.scriptName)) :=
    form.replaceAll (TypeText.noBrace (typeChar_caseClosed.uppered hs)) (by decide)
  refine Lifts.braced_tidy ?_ (by decide)
  rw [Text.toList_replaceAll _ _ (by decide)]
  exact Lifts.swap hd (named.replaceAll includes (by decide)) 0

/-- The start of an implementation says nothing about blocks, and ends with a line end. -/
theorem implementationStart_outline (h : TypeText n) :
    outline (Text.replaceAll implementationForm "__HEADER__" n) = {} := by
  have lines (cs : List Char) (hcs : ∀ c ∈ cs, c = '\n' ∨ c ∉ outlineMarks) :
      ∀ o : Outline, ∃ line, o.feedAll cs = { o with line := line } := by
    induction cs with
    | nil => exact fun o => ⟨o.line, rfl⟩
    | cons c cs ih =>
      intro o
      obtain ⟨hc, hrest⟩ := forall_mem_cons.mp hcs
      rcases hc with rfl | hc
      · exact ih hrest _
      · rw [feedAll_cons, feed_other o hc]
        exact ih hrest _
  have form : Over (fun c => c = '\n' ∨ c ∉ outlineMarks) implementationForm :=
    ((Over.ofList (by decide +kernel)).append (.ofList (by decide))).append (.ofList (by decide))
  obtain ⟨start, hstart⟩ : ∃ start, implementationForm.toList = start ++ ['\n'] := by
    unfold implementationForm
    rw [show "#include <godot_cpp/variant/utility_functions.hpp>\n\n\n" =
      "#include <godot_cpp/variant/utility_functions.hpp>\n\n" ++ "\n" from rfl, ← String.append_assoc,
      String.toList_append]
    exact ⟨_, rfl⟩
  have clear : ∀ c ∈ Text.swap "__HEADER__".toList n.toList 0 start, c = '\n' ∨ c ∉ outlineMarks := by
    intro c hc
    rcases Text.mem_swap (by decide) hc with hc | hc
    · exact form c (by rw [hstart]; exact mem_append_left _ hc)
    · exact .inr (h c hc).2
  obtain ⟨line, hline⟩ := lines _ clear {}
  unfold outline
  rw [Text.toList_replaceAll _ _ (by decide), hstart,
    Text.swap_append_cons (by decide) (by decide) _ [], feedAll_append, hline]
  rfl

theorem implementationText_outline {o : State} (hs : TypeText o.scriptName) {code : String}
    {found : List (Int × String)} (h : (outline code).Rests 0 found) :
    Braced (implementationText o code) ∧ (outline (implementationText o code)).found = found := by
  have same : outline (Text.replaceAll implementationForm "__HEADER__" o.scriptName ++
      Text.replaceAll code "\n\x7d" "\n\x7d\n\n") = outline code := by
    rw [outline_append, implementationStart_outline hs, Text.toList_replaceAll _ _ (by decide)]
    refine feedAll_swap ?_ (fun o => ?_) code.toList 0 {}
    · decide
    · rfl
  rw [← same] at h
  obtain ⟨hdepth, hlow, hfound⟩ := h.tidied maxLineEnds (by decide)
  exact ⟨.of_outline hdepth hlow, hfound⟩

/-- What holds of the header and the implementation of a script with the statements `rows`. -/
structure Kept (s : Settings) (rows : List Row) (header implementation : String) : Prop where
  headerBraced : Braced header
  braced : Braced implementation
  sentences : List.Forall₂ (Said s) ((outline implementation).found.filter isStatement) rows

theorem Held.finish {rows : List Row} (h : Held s { classes := [n], found := rows } t p)
    (hn : t.contains n = true) :
    ∃ t' p', Serves ((writer s).serve .endScript) t p t' p' ∧
      Kept s rows p'.own.header p'.own.implementation := by
  obtain ⟨t', q, o, hserve, -, hready, hlevel, hown, follows⟩ := h.leave rfl (le_refl 0) hn
  obtain ⟨outl, found, hsheet, hrests, hall⟩ := follows
  cases hsheet with
  | plain hbelow =>
    have scriptName : TypeText q.own.scriptName := by
      rw [hown]
      exact hready.scriptName
    have header : Braced (headerText q.own) := by
      refine headerText_braced ?_ scriptName ?_
      · rw [hown]
        exact hready.used
      · rw [hown]
        exact hready.closed
    obtain ⟨hbraced, hfound⟩ := implementationText_outline scriptName hrests
    rw [← hfound] at hall
    generalize htext : headerText q.own = text at header
    generalize hcode : implementationText q.own q.page = code at hbraced hall
    refine ⟨t', { q with own := { q.own with header := text, implementation := code } },
      hserve.bind fun _ _ => ?_, header, hbraced, hall⟩
    have look : Serves (get : PlusM (Desk (Pages State))) t' q t' q (·.pages.page = q.page) :=
      .look (f := id) fun d _ hd => by rw [id, hd]
    refine (Serves.flush hbelow).bind fun _ _ => ?_
    refine Serves.bindEq (r := 0) (.look fun d _ hd => by rw [hd]; exact hlevel) ?_
    refine Serves.bind (Q := fun _ => True) (.pure trivial) fun _ _ => look.bind fun d hd => ?_
    rw [hd, ← htext, ← hcode]
    exact own_serves _

/-- **C++ keeps the blocks of a script.** -/
def keeper (s : Settings) : Keeper (writer s) where
  Holds := Held s
  Done rows p := Kept s rows p.own.header p.own.implementation
  breaks h k := h.breaks k
  close h hl := h.close hl
  body h hbody hl := h.body hbody hl
  head h hbody hl hq := h.head hbody hl hq
  simple h _ hopen hl hpass hx := h.simple hopen hl hpass hx
  method h hbody hst _ hc hn hr := h.method hbody hst hc hn hr
  main h hn hnew := by
    refine h.define hn.typeText hnew ?_ ?_ ?_ ?_ true <;> rfl
  inner {st t p n} h _ hl hn hnew _ := by
    refine h.define hn.typeText hnew ?_ ?_ ?_ ?_ false
    · rfl
    · rfl
    · unfold depthAt
      dsimp only
      rw [length_cons]
      omega
    · rfl
  leave {st t p c d cs} h _ hst hl hknown := by
    have hc := hknown c (by rw [hst]; exact mem_cons_self)
    obtain ⟨t', q, o, hserve, hkin, hready, hlevel, hown, follows⟩ := h.leave hst (Nat.le_succ_of_le hl) hc
    have depth : depthAt { st with classes := d :: cs } = 0 := by
      unfold depthAt
      dsimp only
      rw [length_cons]
      omega
    refine ⟨t', q, hserve, hkin, _, Held.enterClass_serves d, hlevel.trans depth.symm, ?_, ?_⟩
    · show Ready (d :: cs) t' { q.own with className := d }
      rw [hown]
      exact hready.leave
    · rw [depth]
      exact follows.congr rfl rfl
  finish h hn := h.finish hn

theorem start_held (s : Settings) (hn : TypeText n) (t : ClassTable) : Held s {} t (start n) :=
  ⟨rfl, ⟨nofun, nofun, fun _ => rfl, nofun, .of_noBrace nofun, hn⟩, .start⟩

end GdScribe.CPlusPlus
