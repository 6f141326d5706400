import GdScribe.Proofs.Blocks.Sentences
import GdScribe.Proofs.Target.Arguments
import GdScribe.Target.CPlusPlus.Writer

/-!
# Names and class drafts in C++

What C++ writes for names, calls and the lines before blocks stays on its line. The declaration of a
class is collected in a draft, which has one brace open until the class ends.

* `CPlusPlus.Ready`: what the target knows besides its pages at a stage.

Principal results: `CPlusPlus.inlines`, `CPlusPlus.head_serves`, `Ready.redraft` and `Ready.use`.
-/

namespace GdScribe.CPlusPlus

open Target Outline List
open Read (Serves)

variable {s : Settings} {t t' : ClassTable} {p q : Pages State}

/-! ## Names -/

variable {n : String}

theorem FreeName.ne_empty (h : FreeName n) : n ≠ "" := by
  rintro rfl
  exact absurd h.identifier.start nofun

theorem typeText_variableName (h : FreeName n) : TypeText (variableName n) ∧ variableName n ≠ "" := by
  unfold variableName
  cases hl : variableNames.lookup n with
  | some text =>
    obtain ⟨k, hk⟩ := CSharp.mem_of_lookup hl
    have all : ∀ e ∈ variableNames, TypeText e.2 ∧ e.2 ≠ "" := by decide
    exact all _ hk
  | none => exact ⟨h.typeText, FreeName.ne_empty h⟩

/-- The names of the library's functions stay on their line, and start neither with a gap nor like
the binding of a method. -/
theorem functionNames_snug : ∀ e ∈ functionNames,
    snugBy (fun c => ! [10, 40, 41, 59, 123, 125].contains c.toNat) 0 e.2.toList = true ∧
      e.2.toList.head?.all (fun c => ! [9, 32, 67].contains c.toNat) = true := by
  simp only [functionNames, functionTable, forall_mem_append, forall_mem_map, String.toList_append]
  decide +kernel

theorem callName_cases (caller : Ty) : (∃ e ∈ functionNames, callName caller n = e.2) ∨ callName caller n = n := by
  unfold callName
  split
  · cases hl : functionNames.lookup n with
    | some text =>
      obtain ⟨k, hk⟩ := CSharp.mem_of_lookup hl
      exact .inl ⟨_, hk, rfl⟩
    | none => exact .inr rfl
  · exact .inr rfl

variable {e : String × String}

theorem functionName_inline (he : e ∈ functionNames) : Inline e.2.toList := by
  refine .of_snugBy (fun c hc hm => ?_) (functionNames_snug e he).1
  have marks : ∀ x ∈ outlineMarks, (! [10, 40, 41, 59, 123, 125].contains x.toNat) = false := by decide
  rw [marks c hm] at hc
  cases hc

theorem functionName_start (he : e ∈ functionNames) {c : Char}
    (hc : c ∈ e.2.toList.head?) : c ≠ ' ' ∧ c ≠ '\t' ∧ c ≠ 'C' := by
  have start := (functionNames_snug e he).2
  rw [hc] at start
  refine ⟨?_, ?_, ?_⟩ <;> rintro rfl <;> revert start <;> decide

/-! ## Writing -/

theorem own_serves (f : State → State) : Serves (Page.modifyOwn f) t p t { p with own := f p.own } :=
  .modify_pages (f := fun p : Pages State => { p with own := f p.own })

variable {text : String}

/-- What is not made of line ends only, or stands in a scope, is written on the page. -/
theorem put_serves (h : text.toList.all (· == '\n') = false ∨ 0 < p.level) :
    Serves (put text) t p t { p with page := p.page ++ Page.indented p.level text } := by
  refine Serves.level.bindEq ?_
  have inside : ¬ (text.toList.all (· == '\n') && decide (p.level ≤ 0)) = true := by
    rcases h with h | h
    · simp [h]
    · simp [h]
  rw [if_neg inside]
  exact (Prints.write _ p).bind fun _ _ => .trace _

/-- What the target knows after a text is written outside all scopes. -/
def State.outside (o : State) (text : String) : State :=
  if o.drafts.isEmpty then { o with declarations := o.declarations ++ text }
  else o.redraft (·.add text)

theorem put_outside (text : String) (h : text.toList.all (· == '\n') = true) (hl : p.level ≤ 0) :
    Serves (put text) t p t { p with own := p.own.outside (Page.indented p.level text) } := by
  refine Serves.level.bindEq ?_
  rw [if_pos (by simp [h, hl])]
  exact (own_serves _).bind fun _ _ => .trace _

theorem put_prints (h : NoBreak text) (hne : text ≠ "") : Prints t (put text) text := by
  intro p
  have some : text.toList.all (· == '\n') = false := by
    cases ht : text.toList with
    | nil => exact absurd (String.toList_injective ht) hne
    | cons c cs =>
      have other : c ≠ '\n' := by
        rintro rfl
        exact h (by rw [ht]; exact .head _)
      simp [other]
  have served := put_serves (t := t) (p := p) (.inl some)
  rwa [Page.indented_eq h] at served

theorem openScope_serves : Serves openScope t p t
    { p with page := p.page ++ Page.indented p.level "\n\x7b", level := p.level + 1 } :=
  Serves.level.bindEq <|
    (Serves.trace _).bind fun _ _ => (put_serves (.inl rfl)).bind fun _ _ =>
      .modify_pages (f := fun p : Pages State => { p with level := p.level + 1 })

theorem closeScope_serves (h : p.level ≠ 0) : Serves closeScope t p t
    { p with page := p.page ++ Page.indented (p.level + -1) "\n\x7d", level := p.level + -1 } := by
  refine Serves.level.bindEq ?_
  refine (Serves.trace _).bind fun _ _ => ?_
  rw [if_pos h]
  exact (Serves.modify_pages (f := fun p : Pages State => { p with level := p.level + -1 })).bind
    fun _ _ => put_serves (.inl rfl)

theorem closeScope_serves_none (h : p.level = 0) : Serves closeScope t p t p := by
  refine Serves.level.bindEq ?_
  refine (Serves.trace _).bind fun _ _ => ?_
  rw [if_neg (fun hne => hne h)]
  exact .pure trivial

theorem typeText_serves (type : Ty) : Serves (typeText s type) t p t
    { p with own := p.own.use (typeUses s t type) } (· = typeName s type) :=
  Serves.bindEq (.look fun _ ht _ => ht) <| (own_serves _).bind fun _ _ => .pure rfl

/-! ## The dialect -/

theorem bareName_prints (role : NameRole) (h : FreeName n) :
    ∃ text, Prints t (bareName role n) text ∧ TypeText text := by
  match role with
  | .singleton | .property => exact ⟨n, put_prints h.typeText.inline.noBreak (FreeName.ne_empty h), h.typeText⟩
  | .variable =>
    obtain ⟨htext, hne⟩ := typeText_variableName h
    exact ⟨_, put_prints htext.inline.noBreak hne, htext⟩

theorem inlines (s : Settings) (t : ClassTable) : (dialect s).Inlines t where
  put h hne := put_prints h hne
  name role n h :=
    have ⟨text, prints, htext⟩ := bareName_prints role h
    ⟨text, prints, htext.inline⟩
  callName caller n h := by
    show Inline (callName caller n).toList
    rcases callName_cases caller with ⟨e, he, hn⟩ | hn
    · rw [hn]
      exact functionName_inline he
    · rw [hn]
      exact h.typeText.inline
  flush caller n h := by
    show Flush (callName caller n)
    rcases callName_cases caller with ⟨e, he, hn⟩ | hn
    · rw [hn]
      intro c hc
      obtain ⟨hblank, htab, -⟩ := functionName_start he hc
      simp [isGap, hblank, htab]
    · rw [hn]
      exact flush_of_nameParts h.identifier.letters

theorem behind (s : Settings) : (dialect s).Behind (writer s) where
  breakStatement := rfl
  continueStatement := rfl
  returnHead _ := rfl
  expr _ := rfl
  ifHead _ := rfl
  elifHead _ := rfl
  elseHead := rfl
  whileHead _ := rfl
  endStatement t p h := by
    refine Serves.level.bindEq ?_
    rw [if_pos h]
    exact put_prints (by decide) (by decide) p

/-- Whether a sentence binds a method. -/
def isBinding (text : String) : Bool := Text.startsWith text "ClassDB::"

theorem not_binding_of_start {c : Char} {cs : List Char} (ht : text.toList = c :: cs)
    (hc : c ≠ 'C') : isBinding text = false := by
  unfold isBinding Text.startsWith
  rw [ht]
  show (('C' == c) && _) = false
  simp [Ne.symm hc]

theorem call_not_binding (caller : Ty) (hn : FreeName n) : isBinding (callName caller n ++ "()") = false := by
  rcases callName_cases caller with ⟨e, he, hcall⟩ | hcall
  · have text : (callName caller n ++ "()").toList = e.2.toList ++ ['(', ')'] := by
      rw [hcall, String.toList_append]
      rfl
    cases hc : e.2.toList with
    | nil => exact not_binding_of_start (by rw [text, hc]; rfl) (by decide : '(' ≠ 'C')
    | cons c cs =>
      exact not_binding_of_start (by rw [text, hc]; rfl) (functionName_start he (by rw [hc]; rfl)).2.2
  · -- a name has no colon in it
    have absent : ':' ∉ (n ++ "()").toList := by
      rw [String.toList_append]
      intro hm
      rcases mem_append.mp hm with hm | hm
      · exact absurd (hn.identifier.letters ':' hm) nofun
      · exact absurd hm nofun
    rw [hcall, Bool.eq_false_iff]
    intro hp
    exact absent (( isPrefixOf_iff_prefix.mp hp).subset (by decide))

theorem spellings_not_binding {x : Simple} (hx : (Line.simple x).Proper)
    (h : text ∈ (dialect s).spellings x) : isBinding text = false := by
  cases x with
  | pass => cases h
  | stop | skip => obtain rfl := mem_singleton.mp h; decide
  | result digits =>
    obtain rfl := mem_singleton.mp h
    exact not_binding_of_start (by rw [String.toList_append]; rfl) (by decide : 'r' ≠ 'C')
  | call n =>
    simp only [Dialect.spellings, mem_cons, not_mem_nil, or_false] at h
    rcases h with rfl | rfl | rfl
    · exact call_not_binding none hx
    · exact call_not_binding (some ClassTable.globalScope) hx
    · split
      · rw [String.append_assoc]
        exact not_binding_of_start (by rw [String.toList_append]; rfl) (by decide : 'n' ≠ 'C')
      · rw [String.empty_append]
        exact call_not_binding (some n) hx

/-! ## Types -/

/-- The parts of a spelling say nothing about blocks. -/
def Spelling.Tame : Spelling → Prop
  | .plain text => TypeText text
  | .reference parts => ∀ u ∈ parts, TypeText u

variable {type : Ty} {c : String} {cs : List String}

variable (h : ∀ n, type = some n → TypeText n)

include h

theorem spelling_tame : (spelling s type).Tame := by
  cases type with
  | none => exact (by decide : TypeText "void")
  | some n =>
    have hn := h n rfl
    unfold spelling
    dsimp only
    split
    · exact hn
    split
    · exact (by decide : TypeText "String")
    split
    · exact (by decide : TypeText "Array")
    split
    · exact (hn.dropEnd 4).replaceAll (by decide) nofun
    split
    · exact (by decide : TypeText "double")
    split
    · exact hn
    · exact fun u hu c hc => hn c (Text.mem_split hu hc)

theorem typeText_typeName : TypeText (typeName s type) := by
  have tame := spelling_tame (s := s) h
  unfold typeName
  split
  · rename_i hs
    rwa [hs] at tame
  · rename_i hs
    rw [hs] at tame
    exact ((by decide : TypeText "Ref<").append (.intercalate (by decide) tame)).append (by decide)

theorem typeText_typeUses : ∀ u ∈ typeUses s t type, TypeText u := by
  have tame := spelling_tame (s := s) h
  intro u hu
  unfold typeUses at hu
  split at hu
  · cases hu
  · rename_i hs
    rw [hs] at tame
    have part := mem_of_mem_take (mem_filter.mp hu).1
    exact tame u (mem_reverse.mp part)

omit h

/-! ## The lines before blocks -/

theorem Over.splitArguments {q : Char → Prop} (h : Over q text) : ∀ a ∈ splitArguments text, Over q a := by
  intro a ha c hc
  refine h c ?_
  rw [← intercalate_splitArguments text]
  exact mem_intercalate ha hc

/-- The head of a loop that counts has its semicolons between parentheses. -/
theorem countingHead_inline {type name : String} {args : List String} (ht : TypeText type)
    (hn : TypeText name) (ha : ∀ a ∈ args, TypeText a) : Inline (countingHead type name args).toList := by
  have line {first last step : String} (hf : TypeText first) (hl : TypeText last) (hs : TypeText step) :
      Inline ("for(" ++ type ++ " " ++ name ++ "=" ++ first ++ "; " ++ name ++ "<" ++ last ++ "; " ++
        name ++ "+=" ++ step ++ ")").toList := by
    have one : TypeText (type ++ " " ++ name ++ "=" ++ first) :=
      (((ht.append (by decide)).append hn).append (by decide)).append hf
    have two : TypeText (" " ++ name ++ "<" ++ last) :=
      (((by decide : TypeText " ").append hn).append (by decide)).append hl
    have three : TypeText (" " ++ name ++ "+=" ++ step) :=
      (((by decide : TypeText " ").append hn).append (by decide)).append hs
    have inner : Enclosed (type ++ " " ++ name ++ "=" ++ first ++ ";" ++ (" " ++ name ++ "<" ++ last) ++
        ";" ++ (" " ++ name ++ "+=" ++ step)).toList := by
      rw [String.toList_append, String.toList_append, String.toList_append, String.toList_append]
      exact (((one.inline.enclosed.append .semicolon).append two.inline.enclosed).append .semicolon).append
        three.inline.enclosed
    have whole := Inline.enclose (w := "for") (by decide) inner
    simpa using whole
  have zero : TypeText "0" := by decide
  have one : TypeText "1" := by decide
  match args, ha with
  | [], _ => exact line zero .empty one
  | [a], ha => exact line zero (ha a (by simp)).strip one
  | [a, b], ha => exact line (ha a (by simp)).strip (ha b (by simp)) one
  | [a, b, c], ha => exact line (ha a (by simp)).strip (ha b (by simp)) (ha c (by simp)).strip
  | a :: b :: c :: d :: rest, ha => exact line (ha a (by simp)).strip (ha b (by simp)) one

/-- What is written for the head of a loop, at the indentation of the page. -/
def LoopHead (z : Settings) (t : ClassTable) (x type : String) (e : Expr) (head : String) : Prop :=
  ∀ p, Serves (forHead z x type e) t p t { p with
    page := p.page ++ Page.indented p.level head
    own := p.own.use (typeUses z t (some type)) }

theorem forHead_writes {e : Expr} (x type : String) (he : Prints t ((dialect s).expr e) text) : LoopHead s t x type e
    (if Text.startsWith text "range" then
      countingHead (typeName s (some type)) x (splitArguments (Text.dropEnd (Text.replaceFirst text "range(" "") 1))
    else "for(" ++ typeName s (some type) ++ " " ++ x ++ " : " ++ text ++ ")") := by
  intro p
  refine (he.onPage p).bindEq <| (typeText_serves _).bindEq ?_
  split
  · exact put_serves (.inl (by unfold countingHead; split; simp))
  · exact put_serves (.inl (by simp))

theorem forHead_serves {x type : String} (role : NameRole) (hx : FreeName x) (htype : TypeText type)
    (hn : FreeName n) : ∃ text uses, Inline text.toList ∧ (∀ u ∈ uses, TypeText u) ∧
      Serves (forHead s x type (.name role n)) t p t
        { p with page := p.page ++ text, own := p.own.use uses } := by
  have types : ∀ m, some type = some m → TypeText m := fun m hm => by cases hm; exact htype
  have spelled := typeText_typeName (s := s) types
  obtain ⟨text, hprints, htext⟩ := bareName_prints role hn
  have written := forHead_writes (s := s) (e := .name role n) x type hprints p
  split at written
  · have rest : TypeText (Text.replaceFirst text "range(" "") := htext.replaceFirst .empty
    have line := countingHead_inline spelled hx.typeText (Over.splitArguments (rest.dropEnd 1))
    rw [Page.indented_eq line.noBreak] at written
    exact ⟨_, _, line, typeText_typeUses types, written⟩
  · have inner : TypeText (typeName s (some type) ++ " " ++ x ++ " : " ++ text) :=
      (((spelled.append (by decide)).append hx.typeText).append (by decide)).append htext
    have line : Inline ("for(" ++ typeName s (some type) ++ " " ++ x ++ " : " ++ text ++ ")").toList := by
      simpa using Inline.enclose (w := "for") (by decide) inner.inline.enclosed
    rw [Page.indented_eq line.noBreak] at written
    exact ⟨_, _, line, typeText_typeUses types, written⟩

/-- **Every line before a block is written**, and stays on its line. -/
theorem head_serves {r : Request} (h : r.IsHead) : ∃ text uses, Inline text.toList ∧ (∀ u ∈ uses, TypeText u) ∧
      Serves (serve s r) t p t { p with page := p.page ++ text, own := p.own.use uses } := by
  match r, h with
  | .forHead x type (.name role n), ⟨hx, htype, hn⟩ => exact forHead_serves role hx htype hn
  | .ifHead _, h | .elifHead _, h | .whileHead _, h | .elseHead, h =>
    obtain ⟨text, hprints, hline⟩ := (behind s).head (inlines s t) h (by nofun)
    exact ⟨text, [], hline, nofun, hprints p⟩

/-! ## Drafts -/

/-- A text without braces. -/
abbrev NoBrace : String → Prop := Over fun c => c ≠ '\x7b' ∧ c ≠ '\x7d'

theorem TypeText.noBrace (h : TypeText text) : NoBrace text := by
  intro c hc
  have marks := (h c hc).2
  constructor <;> rintro rfl <;> exact marks (by decide)

theorem noBrace_indented (level : Int) (h : NoBrace text) : NoBrace (Page.indented level text) :=
  h.replaceAll (Over.append (by decide) (Over.times (by decide) _)) nofun

/-- The draft of a class that has functions only. Its declaration has one brace open. -/
structure ClassDraft.Fair (d : ClassDraft) (info : ClassInfo) : Prop where
  access : d.isProtected = false
  onready : d.onready = []
  markers : d.markers = []
  signals : d.signals = {}
  text : Lifts 1 d.text.toList
  methods : ∀ n ∈ info.methods.keys, TypeText n ∧ d.methodArgs.find? n = some []
  enums : info.enums = {}

namespace ClassDraft.Fair

variable {d : ClassDraft} {info info' : ClassInfo}

theorem add (h : d.Fair info) (ht : NoBrace text) : (d.add text).Fair info := by
  refine ⟨h.access, h.onready, h.markers, h.signals, ?_, h.methods, h.enums⟩
  show Lifts 1 (d.text ++ text).toList
  rw [String.toList_append]
  exact h.text.append (by decide) (.of_noBrace ht)

theorem toPublic (h : d.Fair info) : d.toPublic = d := by
  unfold ClassDraft.toPublic
  rw [h.access]
  rfl

theorem method (h : d.Fair info) (hn : TypeText n)
    (hm : ∀ m ∈ info'.methods.keys, m = n ∨ m ∈ info.methods.keys) (he : info'.enums = info.enums) :
    ({ d with methodArgs := d.methodArgs.put n [] } : ClassDraft).Fair info' := by
  refine ⟨h.access, h.onready, h.markers, h.signals, h.text, fun m hmem => ?_, he.trans h.enums⟩
  rw [Table.find?_put]
  split
  · rename_i heq
    exact ⟨heq ▸ hn, rfl⟩
  · rename_i hne
    exact h.methods m ((hm m hmem).resolve_left (Ne.symm hne))

end ClassDraft.Fair

/-- What the target knows besides its pages while the given classes are open, innermost first. -/
structure Ready (classes : List String) (t : ClassTable) (o : State) : Prop where
  current : ∀ c ∈ classes.head?, o.className = c
  drafts : ∀ c ∈ classes, TypeText c ∧ ∃ d, o.drafts.find? c = some d ∧ d.Fair (t.info c)
  /-- Before the first class there is no draft. -/
  fresh : classes = [] → o.drafts = {}
  used : ∀ u ∈ o.used, TypeText u
  declarations : Lifts 0 o.declarations.toList
  scriptName : TypeText o.scriptName

/-- The classes after the current one has ended, which has no enumerations. -/
def State.closed (o : State) : State :=
  { o with
    declarations := o.declarations ++ o.draft.text ++ "\x7d;\n\n"
    implementation := o.implementation ++ String.join (o.draft.statics.map (· ++ ";\n")) }

namespace Ready

variable {o : State} {c : String} {cs classes : List String}

theorem className (h : Ready (c :: cs) t o) : o.className = c := h.current c rfl

theorem draft (h : Ready (c :: cs) t o) : o.draft.Fair (t.info c) := by
  obtain ⟨d, hd, hfair⟩ := (h.drafts c mem_cons_self).2
  unfold State.draft
  rw [h.className, hd]
  exact hfair

/-- The draft of the current class changes, and perhaps what is known of the class. -/
theorem redraft (h : Ready (c :: cs) t o) (ht : ∀ e, e ≠ c → t'.info e = t.info e)
    {f : ClassDraft → ClassDraft} (hf : o.draft.Fair (t.info c) → (f o.draft).Fair (t'.info c)) :
    Ready (c :: cs) t' (o.redraft f) := by
  refine ⟨h.current, fun e he => ⟨(h.drafts e he).1, ?_⟩, nofun, h.used, h.declarations, h.scriptName⟩
  show ∃ d, (o.drafts.put o.className (f o.draft)).find? e = some d ∧ _
  rw [Table.find?_put, h.className]
  split
  · rename_i heq
    exact ⟨_, rfl, heq ▸ hf h.draft⟩
  · rename_i hne
    rw [ht e (Ne.symm hne)]
    exact (h.drafts e he).2

theorem add (h : Ready (c :: cs) t o) (ht : NoBrace text) :
    Ready (c :: cs) t (o.redraft (·.add text)) := h.redraft (fun _ _ => rfl) fun hd => hd.add ht

theorem use (h : Ready classes t o) {names : List String} (hn : ∀ n ∈ names, TypeText n) :
    Ready classes t (o.use names) := by
  have all : ∀ us : List String, (∀ u ∈ us, TypeText u) →
      ∀ u ∈ names.foldl (fun us n => if us.contains n then us else us ++ [n]) us, TypeText u := by
    induction names with
    | nil => exact fun _ hus => hus
    | cons n ns ih =>
      intro us hus
      refine ih (fun m hm => hn m (mem_cons_of_mem n hm)) _ ?_
      dsimp only
      split
      · exact hus
      · intro u hu
        rcases mem_append.mp hu with hu | hu
        · exact hus u hu
        · exact mem_singleton.mp hu ▸ hn n mem_cons_self
  exact ⟨h.current, h.drafts, h.fresh, all o.used h.used, h.declarations, h.scriptName⟩

theorem outside (h : Ready classes t o) (ht : NoBrace text) : Ready classes t (o.outside text) := by
  unfold State.outside
  cases classes with
  | nil =>
    rw [if_pos (by rw [h.fresh rfl]; rfl)]
    refine ⟨h.current, h.drafts, h.fresh, h.used, ?_, h.scriptName⟩
    rw [String.toList_append]
    exact h.declarations.level (.of_noBrace ht)
  | cons c cs =>
    obtain ⟨d, hd, -⟩ := (h.drafts c mem_cons_self).2
    have some : o.drafts.isEmpty = false := by
      cases he : o.drafts.isEmpty with
      | false => rfl
      | true =>
        unfold Table.find? at hd
        rw [isEmpty_iff.mp he] at hd
        cases hd
    rw [if_neg (by rw [some]; decide)]
    exact h.add ht

theorem closed (h : Ready (c :: cs) t o) : Lifts 0 o.closed.declarations.toList := by
  have rest : Lifts 0 [';', '\n', '\n'] := .of_noBrace (by decide)
  have parts := ((h.declarations.level h.draft.text).closing (Int.le_refl 0)).level rest
  simpa [State.closed] using parts

theorem leave {d : String} (h : Ready (c :: d :: cs) t o) : Ready (d :: cs) t { o.closed with className := d } :=
  ⟨fun _ he => Option.some.inj he, fun e he => h.drafts e (mem_cons_of_mem c he), nofun, h.used,
    h.closed, h.scriptName⟩

theorem define (h : Ready classes t o) (hn : TypeText n) (hnew : t.contains n = false)
    {o' : State} {d : ClassDraft} (hc : o'.className = n)
    (hd : ∀ e, o'.drafts.find? e = if n = e then some d else o.drafts.find? e)
    (hfair : d.Fair { base := some "Object" }) (hu : o'.used = (o.use ["Object"]).used)
    (hdecl : o'.declarations = o.declarations) (hs : o'.scriptName = o.scriptName) :
    Ready (n :: classes) (t.declare n "Object") o' := by
  refine ⟨fun c hm => hc.trans (Option.some.inj hm), fun e he => ?_, nofun, ?_, hdecl ▸ h.declarations,
    hs ▸ h.scriptName⟩
  · rw [hd, ClassTable.info_declare t n "Object" hnew]
    by_cases hne : n = e
    · rw [if_pos hne, if_pos hne]
      exact ⟨hne ▸ hn, d, rfl, hfair⟩
    · rw [if_neg hne, if_neg hne]
      exact h.drafts e ((mem_cons.mp he).resolve_left (Ne.symm hne))
  · rw [hu]
    exact (h.use (by decide)).used

end Ready

theorem title_lifts (hn : TypeText n) :
    Lifts 1 ("class " ++ n ++ " : public " ++ "Object" ++ " \x7b\n\tGDCLASS(" ++ n ++ ", " ++
      "Object" ++ ");\npublic:\n").toList := by
  have before : NoBrace ("class " ++ n ++ " : public Object ") :=
    (Over.append (by decide) (TypeText.noBrace hn)).append (by decide)
  have after : NoBrace ("\n\tGDCLASS(" ++ n ++ ", Object);\npublic:\n") :=
    (Over.append (by decide) (TypeText.noBrace hn)).append (by decide)
  have parts := (Lifts.of_noBrace before).level (Lifts.opening.append (by decide) (.of_noBrace after))
  simpa using parts

variable {u : ClassTable}

theorem defineClass_serves {classes : List String}
    (h : Ready classes t p.own) (hn : TypeText n) (hnew : t.contains n = false) :
    ∃ o, Ready (n :: classes) (t.declare n "Object") o ∧
      Serves (defineClass n "Object") u { p with own := { p.own with className := n } } u
        { p with own := o } := by
  let title := "class " ++ n ++ " : public " ++ "Object" ++ " \x7b\n\tGDCLASS(" ++ n ++ ", " ++ "Object" ++
    ");\npublic:\n"
  have found (e : String) : ((p.own.drafts.put n { name := n }).put n
      (({ name := n } : ClassDraft).add title)).find? e =
        if n = e then some (({ name := n } : ClassDraft).add title) else p.own.drafts.find? e := by
    rw [Table.find?_put, Table.find?_put]
    split <;> rfl
  have known : (p.own.drafts.put n { name := n }).find? n = some { name := n } := by
    rw [Table.find?_put, if_pos rfl]
  have fair : (({ name := n } : ClassDraft).add title).Fair { base := some "Object" } := by
    refine ⟨rfl, rfl, rfl, rfl, ?_, nofun, rfl⟩
    show Lifts 1 ("" ++ title).toList
    rw [String.empty_append]
    exact title_lifts hn
  have changed (e : String) : (State.redraft
      { ({ p.own with className := n } : State).use ["Object"] with
        drafts := p.own.drafts.put n { name := n } } (·.add title)).drafts.find? e =
      if n = e then some (({ name := n } : ClassDraft).add title) else p.own.drafts.find? e := by
    unfold State.redraft State.draft
    dsimp only [State.use]
    rw [known]
    exact found e
  exact ⟨_, h.define hn hnew rfl changed fair rfl rfl rfl,
    (own_serves _).bind fun _ _ => (own_serves _).bind fun _ _ => own_serves _⟩

/-! ## Methods -/

theorem updateClass_serves (hc : p.own.className = c) (f : ClassInfo → ClassInfo) :
    Serves (updateClass f) t p (t.update c f) p :=
  fun d ht hp => ⟨⟨⟩, { d with classes := d.classes.update d.pages.own.className f }, rfl, trivial,
    by rw [ht, hp, hc], hp, rfl⟩

theorem own_look : Serves (Page.own : PlusM State) t p t p (· = p.own) := .look fun _ _ hp => by rw [hp]

theorem draft_look : Serves draft t p t p (· = p.own.draft) := own_look.bindEq (.pure rfl)

theorem draft_serves (h : Ready (c :: cs) u p.own) :
    Serves draft t p t p (·.Fair (u.info c)) := own_look.bindEq (.pure h.draft)

/-- Only the methods of one class differ, by one name. -/
structure Adds (c n : String) (t t' : ClassTable) : Prop where
  others : ∀ e, e ≠ c → t'.info e = t.info e
  methods : ∀ m ∈ (t'.info c).methods.keys, m = n ∨ m ∈ (t.info c).methods.keys
  enums : (t'.info c).enums = (t.info c).enums

theorem Adds.refl (c n : String) (t : ClassTable) : Adds c n t t := ⟨fun _ _ => rfl, fun _ => .inr, rfl⟩

theorem Adds.update (h : Adds c n t t') (returns : Ty) :
    Adds c n t (t'.update c fun info => { info with methods := info.methods.put n returns }) := by
  refine ⟨fun e he => ?_, fun m hm => ?_, ?_⟩
  · rw [ClassTable.info_update, if_neg (Ne.symm he), h.others e he]
  · rw [ClassTable.info_update, if_pos rfl] at hm
    rcases (Table.mem_keys_put ..).mp hm with rfl | hm
    · exact .inl rfl
    · exact h.methods m hm
  · rw [ClassTable.info_update, if_pos rfl]
    exact h.enums

/-- **A method is declared and defined.** -/
theorem method_serves {code : String} {r : Ty} {t0 : ClassTable}
    (h : Ready (c :: cs) t0 p.own) (ht : Adds c n t0 t) (hn : TypeText n)
    (hr : ∀ u, r = some u → TypeText u) (hcode : code ≠ "") (static override : Bool) :
    ∃ head o, Inline head.toList ∧
      Ready (c :: cs) (t.update c fun info => { info with methods := info.methods.put n r }) o ∧
      Serves (method s { name := n, returns := r, code, static, override }) t p
        (t.update c fun info => { info with methods := info.methods.put n r })
        { p with page := p.page ++ head ++ code, own := o } := by
  let t1 := t.update c fun info => { info with methods := info.methods.put n r }
  have noted : Ready (c :: cs) t1 (p.own.redraft fun d => { d with methodArgs := d.methodArgs.put n [] }) :=
    h.redraft (ht.update r).others fun hd =>
      hd.method hn (ht.update r).methods (ht.update r).enums
  have labelled : Ready (c :: cs) t1
      ((p.own.redraft fun d => { d with methodArgs := d.methodArgs.put n [] }).redraft ClassDraft.toPublic) :=
    noted.redraft (fun _ _ => rfl) fun hd => by rwa [hd.toPublic]
  have type := typeText_typeName (s := s) hr
  have uses := typeText_typeUses (s := s) (t := t1) hr
  have line : NoBrace ("\t" ++ (if static then "static " else "") ++ typeName s r ++ " " ++ n ++ "(" ++
      "" ++ ")" ++ (if override then " override" else "") ++ ";\n") := by
    have first : NoBrace (if static then "static " else "") := by cases static <;> decide
    have last : NoBrace (if override then " override" else "") := by cases override <;> decide
    exact ((((((((Over.append (by decide) first).append (TypeText.noBrace type)).append (by decide)).append
      (TypeText.noBrace hn)).append (by decide)).append .empty).append (by decide)).append last).append (by decide)
  have all := ((labelled.use uses).add line).use uses
  have empty : code.isEmpty = false := by simpa using hcode
  have class_text : TypeText c := (h.drafts c mem_cons_self).1
  have head : Inline (typeName s r ++ " " ++ c ++ "::" ++ n ++ "(" ++ "" ++ ")").toList := by
    refine .enclose ?_ Inline.nil.enclosed
    exact (((type.append (by decide)).append class_text).append (by decide)).append hn
  refine ⟨_, _, head, all, ?_⟩
  refine (own_serves _).bind fun _ _ => ?_
  refine (updateClass_serves (by exact h.className) _).bind fun _ _ => ?_
  rw [if_neg (by rw [empty]; decide)]
  refine Serves.bindEq (.pure rfl) <| (own_serves _).bind fun _ _ => ?_
  -- there are no parameters, in the header or in the implementation
  refine (typeText_serves r).bindEq <| Serves.bindEq (.pure rfl) ?_
  refine (own_serves _).bind fun _ _ => ?_
  refine (typeText_serves r).bindEq <| Serves.bindEq (.pure rfl) ?_
  refine own_look.bindEq ?_
  have put := put_prints (t := t1) head.noBreak (by simp)
  rw [← all.className] at put
  refine (put _).bind fun _ _ => (draft_serves (by exact all)).bind fun d hd => ?_
  rw [all.className, if_neg (fun hw => hw.2 (by rw [hd.onready]; rfl))]
  exact Prints.write code _

end GdScribe.CPlusPlus
