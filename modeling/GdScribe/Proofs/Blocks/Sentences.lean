import GdScribe.Proofs.Blocks.Keeper
import GdScribe.Proofs.Blocks.Sheets
import GdScribe.Proofs.Target.Prints

/-!
# Sentences and the lines before blocks

What both targets have in common in writing statements: a statement without a block becomes one
sentence, and the line before a block stays on its line.

* `Dialect.spellings`: the sentences that a statement can become.
* `Says`: a sentence stands for a line of a script, at some depth.

Principal results: `Dialect.Behind.statement` and `Dialect.Behind.head`.
-/

namespace GdScribe

open Outline List
open Read (Serves callTree)

variable {τ : Type}

/-- The sentences that a statement without a block can become. A call makes an object if a class of
that name is known by then. -/
def Dialect.spellings (d : Dialect τ) : Simple → List String
  | .pass => []
  | .stop => ["break"]
  | .skip => ["continue"]
  | .result digits => ["return " ++ digits]
  | .call n =>
    [d.callName none n ++ "()", d.callName (some ClassTable.globalScope) n ++ "()",
     (if d.usesNew (some n) then "new " else "") ++ d.callName (some n) n ++ "()"]

/-- A sentence stands for a line of a script, with so many braces around it as the line should have. -/
def Says (d : Dialect τ) (depth : Row → Int) (e : Int × String) (r : Row) : Prop :=
  e.1 = depth r ∧ ∃ s, r.line = .simple s ∧ e.2 ∈ d.spellings s

/-! ## Texts on one line -/

variable {s : String}

/-- A text that stays on its line has no line end in it: the line grows by the whole text. -/
theorem Inline.noBreak (h : Inline s.toList) : NoBreak s := by
  have step (o : Outline) (c : Char) : (o.feed c).line.length ≤ o.line.length + 1 := by
    unfold feed
    split
    · exact Nat.zero_le _
    split
    · exact Nat.zero_le _
    split
    · exact Nat.zero_le _
    split
    · split
      · exact Nat.le_succ _
      split
      · exact Nat.zero_le _
      · exact le_refl _
    · exact le_refl _
  have all (cs : List Char) : ∀ o : Outline, (o.feedAll cs).line.length ≤ o.line.length + cs.length := by
    induction cs with
    | nil => exact fun _ => le_refl _
    | cons c cs ih =>
      intro o
      have := ih (o.feed c)
      have := step o c
      rw [feedAll_cons, length_cons]
      omega
  intro hn
  obtain ⟨before, after, hs⟩ := append_of_mem hn
  have grown := congrArg (fun o => o.line.length) (h {} (Int.le_refl 0))
  rw [hs, feedAll_append, feedAll_cons] at grown
  have rest := all after (((({} : Outline).feedAll before)).feed '\n')
  have none : ((({} : Outline).feedAll before).feed '\n').line.length = 0 := rfl
  simp only [grow, length_append, length_reverse, length_cons] at grown
  omega

theorem Inline.append_string {t : String} (hs : Inline s.toList) (ht : Inline t.toList) : Inline (s ++ t).toList := by
  rw [String.toList_append]
  exact hs.append ht

theorem Inline.enclose {w : String} (hw : TypeText w) (hs : Enclosed s.toList) :
    Inline (w ++ "(" ++ s ++ ")").toList := by
  have parts := hw.inline.append (.parens hs)
  simpa using parts

theorem namePart_caseClosed : CaseClosed fun c => Scan.isNamePart c = true :=
  .of_ascii (fun _ h => Scan.small_of_isNamePart h) (by decide)

theorem typeChar_of_isNamePart {c : Char} (h : Scan.isNamePart c = true) : TypeChar c :=
  ascii_forall (q := fun c => Scan.isNamePart c = true → TypeChar c) (by decide) c (Scan.small_of_isNamePart h) h

/-- A text does not start with a gap. -/
def Flush (s : String) : Prop := ∀ c ∈ s.toList.head?, isGap c = false

theorem flush_of_nameParts (h : Over (fun c => Scan.isNamePart c = true) s) : Flush s := fun c hc =>
  have part := h c (mem_of_head? hc)
  ascii_forall (q := fun c => Scan.isNamePart c = true → isGap c = false) (by decide) c
    (Scan.small_of_isNamePart part) part

/-! ## Dialects -/

/-- Names and calls stay on their line. -/
structure Dialect.Inlines (d : Dialect τ) (t : ClassTable) : Prop where
  put : ∀ {text : String}, NoBreak text → text ≠ "" → Prints t (d.put text) text
  name : ∀ (role : NameRole) {n : String}, FreeName n → ∃ text, Prints t (d.name role n) text ∧ Inline text.toList
  callName : ∀ (caller : Ty) {n : String}, FreeName n → Inline (d.callName caller n).toList
  flush : ∀ (caller : Ty) {n : String}, FreeName n → Flush (d.callName caller n)

namespace Dialect.Inlines

variable {d : Dialect τ} {t : ClassTable} (H : d.Inlines t) {n : String}

include H

/-- **A statement without a block is one sentence.** -/
theorem spellings {s : Simple} (hs : (Line.simple s).Proper) {text : String} (h : text ∈ d.spellings s) :
    Inline text.toList ∧ text.toList.head?.any (fun c => !isGap c) = true := by
  have parens : Inline "()".toList := .of_snug rfl
  have call {n : String} (caller : Ty) (hn : FreeName n) : Inline (d.callName caller n ++ "()").toList ∧
      (d.callName caller n ++ "()").toList.head?.any (fun c => !isGap c) = true := by
    refine ⟨(H.callName caller hn).append_string parens, ?_⟩
    have flush := H.flush caller hn
    rw [String.toList_append]
    cases hc : (d.callName caller n).toList with
    | nil => rfl
    | cons c cs =>
      have start := flush c (by rw [hc]; rfl)
      simp [start]
  cases s with
  | pass => cases h
  | stop | skip =>
    obtain rfl := mem_singleton.mp h
    exact ⟨.of_snug rfl, rfl⟩
  | result digits =>
    obtain rfl := mem_singleton.mp h
    refine ⟨Inline.append_string (.of_snug rfl) (.of_clear fun c hc hm => ?_), by
      rw [String.toList_append]; rfl⟩
    have decimal := hs.2 c hc
    have marks : ∀ c ∈ outlineMarks, CharClass.isDecimal c = false := by decide
    rw [marks c hm] at decimal
    cases decimal
  | call n =>
    have hn : FreeName n := hs
    simp only [Dialect.spellings, mem_cons, not_mem_nil, or_false] at h
    rcases h with rfl | rfl | rfl
    · exact call none hn
    · exact call (some ClassTable.globalScope) hn
    · split
      · refine ⟨?_, by rw [String.append_assoc, String.toList_append]; rfl⟩
        rw [String.append_assoc]
        exact Inline.append_string (.of_snug rfl) (call (some n) hn).1
      · rw [String.empty_append]
        exact call (some n) hn

theorem call (hn : FreeName n) : ∃ text ∈ d.spellings (.call n),
    Prints t (d.expr (.seq (callTree t n []) .nothing)) text := by
  have written (caller : Ty) : Prints t (do
      d.put (d.callName caller n ++ "(")
      d.put ")") (d.callName caller n ++ "()") := by
    have opening : NoBreak (d.callName caller n ++ "(") :=
      (H.callName caller hn).noBreak.append nofun
    have text : d.callName caller n ++ "()" = d.callName caller n ++ "(" ++ ("" ++ ")") := by
      rw [String.append_assoc]
      rfl
    rw [text]
    exact (H.put opening (by simp)).bind (Prints.nothing.bind (H.put nofun nofun))
  have nothing {x : PageM τ Unit} {text : String} (h : Prints t x text) : Prints t (do x; d.expr .nothing) text := by
    have all := h.bind Prints.nothing
    rwa [String.append_empty] at all
  unfold callTree
  split
  · refine ⟨(if d.usesNew (some n) then "new " else "") ++ d.callName (some n) n ++ "()", by
      simp [Dialect.spellings], nothing ?_⟩
    show Prints t (do
      if d.usesNew (some n) then d.put "new "
      d.put (d.callName (some n) n ++ "(")
      d.put ")") _
    rw [String.append_assoc]
    by_cases hnew : d.usesNew (some n) = true
    · rw [if_pos hnew, if_pos hnew]
      exact (H.put (by decide) (by decide)).bind (written (some n))
    · rw [if_neg hnew, if_neg hnew]
      exact Prints.nothing.bind (written (some n))
  · split
    · exact ⟨_, by simp [Dialect.spellings], nothing (written (some ClassTable.globalScope))⟩
    · exact ⟨_, by simp [Dialect.spellings], nothing (written none)⟩

theorem between (role : NameRole) (hn : FreeName n) {w s : String} (hw : TypeText w) (hs : TypeText s) :
    ∃ text, Prints t (d.between (w ++ "(" ++ s) (.name role n) ")") text ∧ Inline text.toList := by
  obtain ⟨name, hname, hline⟩ := H.name role hn
  have opening : NoBreak (w ++ "(" ++ s) :=
    (hw.inline.noBreak.append (by decide)).append hs.inline.noBreak
  refine ⟨w ++ "(" ++ s ++ (name ++ ")"),
    (H.put opening (by simp)).bind (hname.bind (H.put nofun nofun)), ?_⟩
  have text : w ++ "(" ++ s ++ (name ++ ")") = w ++ "(" ++ (s ++ name) ++ ")" := by
    simp only [String.append_assoc]
  rw [text]
  exact .enclose hw (hs.inline.append_string hline).enclosed

end Dialect.Inlines

/-- The requests that a target leaves to its dialect. -/
structure Dialect.Behind (d : Dialect τ) (w : Writer (Pages τ)) : Prop where
  breakStatement : w.serve .breakStatement = d.put "break;"
  continueStatement : w.serve .continueStatement = d.put "continue;"
  returnHead : ∀ e, w.serve (.returnHead e) = d.returnHead e
  expr : ∀ e, w.serve (.expr e) = d.expr e
  ifHead : ∀ e, w.serve (.ifHead e) = d.between "if(" e ")"
  elifHead : ∀ e, w.serve (.elifHead e) = d.between "else if(" e ")"
  elseHead : w.serve .elseHead = d.put "else"
  whileHead : ∀ e, w.serve (.whileHead e) = d.between "while(" e ")"
  endStatement : ∀ (t : ClassTable) (p : Pages τ), 0 < p.level →
    Serves (w.serve .endStatement) t p t { p with page := p.page ++ ";" }

namespace Dialect.Behind

variable {d : Dialect τ} {w : Writer (Pages τ)} {t : ClassTable} {p : Pages τ}

/-- **A statement without a block is written** as one of its sentences. -/
theorem statement (B : d.Behind w) (H : d.Inlines t) (hp : 0 < p.level) {s : Simple}
    (hs : (Line.simple s).Proper) (hpass : s ≠ .pass) {P : Pages τ → Prop}
    (h : ∀ text ∈ d.spellings s, P { p with page := p.page ++ (text ++ ";") }) :
    AnswersAll w (s.requests t) t p P := by
  have ended (text : String) {e : PageM τ Unit} {q : Request} (hq : w.serve q = e)
      (he : Prints t e text) (ht : text ∈ d.spellings s) :
      AnswersAll w [q, .endStatement] t p P := by
    refine ⟨_, hq ▸ he p, _, B.endStatement t { p with page := p.page ++ text } hp, ?_⟩
    have done := h text ht
    rw [← String.append_assoc] at done
    exact done
  cases s with
  | pass => exact absurd rfl hpass
  | stop => exact ⟨_, B.breakStatement ▸ H.put (by decide) (by decide) p, h "break" (by simp [spellings])⟩
  | skip => exact ⟨_, B.continueStatement ▸ H.put (by decide) (by decide) p,
      h "continue" (by simp [spellings])⟩
  | result digits =>
    refine ended ("return " ++ digits) (B.returnHead _) ?_ (by simp [spellings])
    exact (H.put (by decide) (by decide)).bind (.write digits)
  | call n =>
    obtain ⟨text, ht, hprints⟩ := H.call hs
    exact ended text (B.expr _) hprints ht

/-- **The line before a block is written**, for all but a loop over a sequence. -/
theorem head (B : d.Behind w) (H : d.Inlines t) {q : Request} (hq : q.IsHead)
    (hfor : ∀ x type e, q ≠ .forHead x type e) : ∃ text, Prints t (w.serve q) text ∧ Inline text.toList := by
  have empty : TypeText "" := .empty
  match q, hq with
  | .ifHead (.name role n), hn =>
    rw [B.ifHead]
    exact H.between role hn (w := "if") (by decide) empty
  | .elifHead (.name role n), hn =>
    rw [B.elifHead]
    exact H.between role hn (w := "else if") (by decide) empty
  | .whileHead (.name role n), hn =>
    rw [B.whileHead]
    exact H.between role hn (w := "while") (by decide) empty
  | .elseHead, _ =>
    rw [B.elseHead]
    exact ⟨"else", H.put (by decide) (by decide), .of_snug (by decide)⟩
  | .forHead x type (.name _ _), _ => exact absurd rfl (hfor x type _)

end Dialect.Behind

end GdScribe
