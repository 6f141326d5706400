import GdScribe.Proofs.Progress.Script

/-!
# What becomes of the lines that cannot be read

A line that cannot be read is dropped and reported, and the script is taken up again after it, up to a
limit. A run that returns has come to the end of its script, or has reported as many lines as the limit
allows.

* `panicLine`: the line in which what was dropped is reported.
* `Reported`: between two states so many reports were printed.

Principal results: `Read.recover_reports` and `returns_atEnd_or_reported`.
-/

namespace GdScribe

variable {σ : Type}

/-- The report of what was dropped, from a token on. -/
def panicLine (r : List String × Token) : String := Text.red (Read.panicMessage r.1 r.2)

/-- To the lines printed before, `n` reports were added, among other lines. -/
def Reported (n : Nat) (before after : List String) : Prop :=
  ∃ reports : List (List String × Token), reports.length = n ∧ (before ++ reports.map panicLine).Sublist after

namespace Reported

variable {a b c : List String} {m n : Nat}

theorem zero (h : a <+: b) : Reported 0 a b := ⟨[], rfl, by simpa using h.sublist⟩

theorem one (h : a <+: b) (r : List String × Token) : Reported 1 a (b ++ [panicLine r]) :=
  ⟨[r], rfl, h.sublist.append_right _⟩

theorem trans (h : Reported m a b) (h' : Reported n b c) : Reported (m + n) a c := by
  obtain ⟨r, hr, hs⟩ := h
  obtain ⟨r', hr', hs'⟩ := h'
  refine ⟨r ++ r', by rw [List.length_append, hr, hr'], ?_⟩
  rw [List.map_append, ← List.append_assoc]
  exact (hs.append_right _).trans hs'

theorem after (h : Reported n a b) (hb : b <+: c) : Reported n a c := h.trans (zero hb)

theorem before (hb : a <+: b) (h : Reported n b c) : Reported n a c := by
  have := (zero hb).trans h
  rwa [Nat.zero_add] at this

end Reported

namespace Read

variable {w : Writer σ} {s s' : Reader σ}

theorem moves_consume {v : String} (h : consume s = .ok v s') : s'.moves = s.moves + 1 := by
  cases h
  exact moves_next s

variable {a : Unit}

theorem lines_print {line : String} (h : print line s = .ok a s') :
    s'.desk.printedLines = s.desk.printedLines ++ [line] := by
  cases h
  exact printed_print s.desk [line]

variable (W : w.Prompt)

include W

/-- **A line that is dropped.** It takes a token at least, its line end, and is reported once. -/
theorem recover_reports (n : Nat) (h : recover w (rules w n) s = .ok a s') :
    s.moves < s'.moves ∧ Reported 1 s.desk.printedLines s'.desk.printedLines := by
  obtain ⟨t, _, ht, h⟩ := bind_eq_ok h
  cases ht
  obtain ⟨dropped, s1, hdrop, h⟩ := bind_eq_ok h
  obtain ⟨_, _, hkind, h⟩ := bind_eq_ok h
  cases hkind
  obtain ⟨v, s2, htake, h⟩ := bind_eq_ok h
  obtain ⟨level, s3, hlevel, h⟩ := bind_eq_ok h
  obtain ⟨_, s4, hnote, h⟩ := bind_eq_ok h
  obtain ⟨_, s5, hreport, h⟩ := bind_eq_ok h
  obtain ⟨_, s6, hset, h⟩ := bind_eq_ok h
  obtain ⟨_, s7, hblock, h⟩ := bind_eq_ok h
  cases h
  obtain ⟨_, s', hask, hprint⟩ := bind_eq_ok hreport
  have moved := moves_consume htake
  have drop : Concur 0 Eq (valuesUpTo "LINE_END" (· == .lineEnd) : ReadM σ _) _ :=
    Concur.core.valuesUpTo rfl fun h => by rw [h]
  have onDrop := drop.first.ok hdrop
  have onTake := (Concur.consume (k := 0)).first.ok htake
  have onLevel := (Concur.first (k := 0) (Concur.core.levelOf ..)).ok hlevel
  have onNote := (Concur.note (k := 0) _).first.ok hnote
  have onAsk := (Concur.ask (k := 0) W _).first.ok hask
  have onSet : s5.Onward s6 := by cases hset; exact .of_same rfl rfl rfl rfl
  have onBlock := ((RulesConcur.self W n).blocked (Concur.members W).toLaws).first.ok hblock
  -- what is printed stands between what goes before it and what comes after it
  have early := onLevel.trans (onNote.trans onAsk)
  have late := onSet.trans onBlock
  refine ⟨?_, ?_⟩
  · have := onDrop.moves
    have := early.moves
    have := ((Concur.print (k := 0) _).first.ok hprint).moves
    have := late.moves
    omega
  · have reported := Reported.one (onDrop.trans (onTake.trans early)).lines (dropped, s.current)
    rw [panicLine, ← lines_print hprint] at reported
    exact reported.after late.lines

/-- One round: it comes to the end of the script, is refused by the limit, or drops a line. -/
theorem scriptRound_cases (m tries : Nat) {step : ForInStep Nat}
    (h : scriptRound w (rules w m) tries s = .ok step s') :
    (∃ b, step = .done b) ∧ (s'.current.kind = .eof ∨ maxTries ≤ tries ∧ s' = s) ∨
    step = .yield (tries + 1) ∧ tries < maxTries ∧ s.moves < s'.moves ∧
      Reported 1 s.desk.printedLines s'.desk.printedLines := by
  unfold scriptRound at h
  split at h
  · rename_i few
    obtain ⟨_, s1, hbody, h⟩ := bind_eq_ok h
    obtain ⟨ended, s2, hend, h⟩ := bind_eq_ok h
    cases hend
    split at h
    · rename_i ended
      cases h
      exact .inl ⟨⟨_, rfl⟩, .inl (eq_of_beq ended)⟩
    · obtain ⟨_, s3, hrecover, h⟩ := bind_eq_ok h
      cases h
      have on := ((RulesConcur.self W m).scripts W).classBody.first.ok hbody
      obtain ⟨moved, reported⟩ := recover_reports W m hrecover
      exact .inr ⟨rfl, few, Nat.lt_of_le_of_lt on.moves moved, .before on.lines reported⟩
  · rename_i full
    cases h
    exact .inl ⟨⟨_, rfl⟩, .inr ⟨Nat.not_lt.mp full, rfl⟩⟩

/-- **The rounds of a script.** By induction on them: every round but the last drops a line and moves,
so that only the limit ends the rounds before the end does. -/
theorem scriptRounds_report (m n : Nat) : ∀ (last : Option Nat) (tries b : Nat) (s s' : Reader σ),
    moveRounds (pure true) (scriptRound w (rules w m)) n last tries s = .ok b s' →
    tries ≤ maxTries → last ≠ some s.moves →
    s'.current.kind = .eof ∨ Reported (maxTries - tries) s.desk.printedLines s'.desk.printedLines := by
  induction n with
  | zero => intro _ _ _ _ _ h; cases h
  | succ n ih =>
    intro last tries b s s' h htries since
    rw [moveRounds, get_bind_apply, if_neg since] at h
    obtain ⟨step, s1, hround, h⟩ := bind_eq_ok (show (scriptRound w (rules w m) tries >>= _) s = .ok b s' from h)
    rcases scriptRound_cases W m tries hround with ⟨⟨b', rfl⟩, last⟩ | ⟨rfl, few, moved, reported⟩
    · cases h
      refine last.imp_right ?_
      rintro ⟨full, same⟩
      rw [same, Nat.sub_eq_zero_of_le full]
      exact .zero List.prefix_rfl
    · rcases ih _ _ _ _ _ h few (by rw [ne_eq, Option.some_inj]; omega) with ended | more
      · exact .inl ended
      · have := reported.trans more
        rw [show 1 + (maxTries - (tries + 1)) = maxTries - tries by omega] at this
        exact .inr this

/-- A script that is read without a fault has come to its end, or as many lines are reported as may
be dropped. -/
theorem script_reports (m : Nat) (name : String) (h : script w (rules w m) name s = .ok a s') :
    s'.current.kind = .eof ∨ Reported maxTries s.desk.printedLines s'.desk.printedLines := by
  obtain ⟨_, s1, hheader, h⟩ := bind_eq_ok h
  obtain ⟨_, s2, hbody, hend⟩ := bind_eq_ok h
  obtain ⟨b, s3, hrounds, hpure⟩ := bind_eq_ok hbody
  cases hpure
  have onHeader := (((RulesConcur.self W m).scripts W).header (j := 0) name).first.ok hheader
  have onEnd := (Concur.ask (k := 0) W .endScript).first.ok hend
  obtain ⟨d, -, rfl⟩ := ask_eq_ok hend
  refine (scriptRounds_report W m _ none 0 b s1 s2 hrounds (Nat.zero_le _) nofun).imp_right fun reported => ?_
  exact .before onHeader.lines (reported.after onEnd.lines)

end Read

/-- A run that returns stands at the end of its script, or has printed as many reports as lines may be
dropped. -/
def ReadsOrReports (w : Writer σ) (name text : String) (desk : Desk σ) : Prop :=
  (run w name text desk).fault = none →
    (run w name text desk).AtEnd ∨
    Reported Read.maxTries desk.printedLines (run w name text desk).desk.printedLines

theorem readsOrReports_of_prompt {w : Writer σ} (W : w.Prompt) (name text : String) (desk : Desk σ) :
    ReadsOrReports w name text desk := by
  intro hf
  obtain ⟨first, rest, s, -, hr, hs⟩ := run_ended hf
  rw [hr]
  have printed : desk.printedLines <+: (desk.print first.notices).printedLines := by
    unfold Desk.printedLines
    rw [Read.printed_print]
    exact List.prefix_append ..
  refine (Read.script_reports W _ name hs).imp (fun ended => ⟨s.current, rfl, ended⟩) fun reported => ?_
  exact .before printed reported

/-- **No line is dropped without a report, up to a limit.** A run that returns, for any of the three
targets, stands at the end of its script, or it has reported as many lines as may be dropped. -/
theorem returns_atEnd_or_reported (name text : String) : (∀ desk, ReadsOrReports Collect.writer name text desk) ∧
    (∀ s desk, ReadsOrReports (CSharp.writer s) name text desk) ∧
    ∀ s desk, ReadsOrReports (CPlusPlus.writer s) name text desk :=
  ⟨readsOrReports_of_prompt Collect.writer_prompt name text,
    fun s => readsOrReports_of_prompt (CSharp.writer_prompt s) name text,
    fun s => readsOrReports_of_prompt (CPlusPlus.writer_prompt s) name text⟩

/-- A script with one more line that cannot be read than may be dropped. -/
def strayLines : String := Text.times ")\n" (Read.maxTries + 1)

theorem returns_atEnd_or_reported_strayLines :
    (run Collect.writer "Main" strayLines ⟨{}, #[], ()⟩).fault = none ∧
    ((run Collect.writer "Main" strayLines ⟨{}, #[], ()⟩).AtEnd ∨
      Reported Read.maxTries [] (run Collect.writer "Main" strayLines ⟨{}, #[], ()⟩).desk.printedLines) := by
  have returned : (run Collect.writer "Main" strayLines ⟨{}, #[], ()⟩).fault = none := by decide +kernel
  exact ⟨returned, (returns_atEnd_or_reported "Main" strayLines).1 ⟨{}, #[], ()⟩ returned⟩

/-- **The limit is felt**: past it the run returns with a line of the script still in view. -/
theorem strayLines_not_atEnd :
    (run Collect.writer "Main" strayLines ⟨{}, #[], ()⟩).fault = none ∧
    ¬ (run Collect.writer "Main" strayLines ⟨{}, #[], ()⟩).AtEnd := by
  have view : (run Collect.writer "Main" strayLines ⟨{}, #[], ()⟩).token.map (·.kind) =
      some (.punct ')') := by decide +kernel
  refine ⟨by decide +kernel, fun ⟨t, ht, hk⟩ => ?_⟩
  rw [ht, Option.map_some, hk] at view
  cases view

end GdScribe
