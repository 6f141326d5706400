import GdScribe.ClassTable.Builtin
import GdScribe.Proofs.Blocks.Keeper
import GdScribe.Proofs.Inheritance.Merge

/-!
# The types of the built-in classes

The names and types of a class reference are made of characters that mean nothing to an outline, whatever stands in it.
So the types of the built-in classes say nothing about blocks.

* `Reference.Draft.Clean`: a class that is being read, with such types only.

Principal result: `ClassTable.builtin_tame`.
-/

namespace GdScribe

open List

namespace Table.Tame

variable {t u : Table Ty}

theorem of_mem (h : ∀ e ∈ t.entries, TameTy e.2) : t.Tame := fun _ type found => h _ (mem_of_find? found) type rfl

theorem merge (h : t.Tame) (hu : u.Tame) : (t.merge u).Tame := by
  intro n type found
  rw [find?_merge, Option.or_eq_some_iff] at found
  rcases found with found | ⟨-, found⟩
  · exact hu n type found
  · exact h n type found

end Table.Tame

namespace Reference

theorem typeChar_of_isWordChar {c : Char} (h : isWordChar c = true) : TypeChar c := by
  simpa [isWordChar, TypeChar, outlineMarks] using h

/-- A class that is being read, whose types say nothing about blocks. -/
structure Draft.Clean (d : Draft) : Prop where
  members : ∀ e ∈ d.members, TameTy e.2
  constants : ∀ e ∈ d.constants, TameTy e.2
  enums : ∀ e ∈ d.enums, TameTy e.2
  named : TypeText d.named
  last : TypeText d.last

theorem header_clean (w : String) : (header w).Clean := by
  unfold header
  split <;> exact ⟨nofun, nofun, nofun, .empty, .empty⟩

variable {d : Draft} {w name type before : String}

theorem typeOf_tame (h : TypeText type) : TameTy (typeOf type) := by
  unfold typeOf
  split
  · nofun
  · rintro _ ⟨⟩
    refine .ofList fun c hc => ?_
    obtain ⟨b, hb, rfl⟩ := mem_map.mp hc
    split
    · decide
    · exact h b hb

theorem typeText_dropStart (h : TypeText w) (n : Nat) : TypeText (Text.dropStart w n) :=
  .ofList fun c hc => h c (mem_of_mem_drop hc)

theorem typeText_nameAfter (hb : TypeText before) (hw : TypeText w) : TypeText (nameAfter before w) := by
  refine Over.intercalate (by decide) fun x hx => ?_
  rcases mem_append.mp hx with hx | hx
  · exact fun c hc => hb c (Text.mem_splitUpTo (mem_of_mem_take hx) hc)
  · rw [mem_singleton.mp hx]
    exact typeText_dropStart hw _

theorem typeText_spell (h : TypeText w) (s : Section) : TypeText (s.spell w) := by
  have upper : TypeText w.toUpper := by
    intro c hc
    rw [String.toUpper, String.toList_map] at hc
    obtain ⟨b, hb, rfl⟩ := mem_map.mp hc
    exact typeChar_caseClosed.upper b (h b hb)
  cases s with
  | members | methods => exact h
  | constants | enums =>
    unfold Section.spell
    dsimp only
    split
    · exact typeText_dropStart h 1
    · exact upper

namespace Draft.Clean

variable (h : d.Clean)

include h

theorem add (hn : TypeText name) (ht : TypeText type) : (d.add name type).Clean := by
  have typed := typeOf_tame ht
  have signal : TameTy (some (signalType name)) := by
    rintro _ ⟨⟩
    exact hn.append (by decide)
  have enumeration {text : String} (ht : TypeText text) : TameTy (some (enumType text)) := by
    rintro _ ⟨⟩
    exact ht.append (by decide)
  unfold Draft.add
  split
  · refine { h with members := forall_mem_cons.mpr ⟨?_, h.members⟩, last := ht }
    split
    · exact signal
    · exact typed
  · exact { h with last := ht }
  · split
    · refine { h with
        constants := forall_mem_cons.mpr ⟨?_, h.constants⟩
        enums := forall_mem_cons.mpr ⟨enumeration (typeText_dropStart ht 1), h.enums⟩
        last := ht }
      rintro _ ⟨⟩
      decide
    · exact { h with constants := forall_mem_cons.mpr ⟨typed, h.constants⟩, last := ht }
  · exact { h with enums := forall_mem_cons.mpr ⟨enumeration ht, h.enums⟩, last := ht }

theorem read (w : String) : (d.read w).Clean := by
  have entry {written type : String} (hw : TypeText written) (ht : TypeText type) :
      { d.add (nameAfter d.named (d.current.spell written)) type with
        named := nameAfter d.named (d.current.spell written) }.Clean := by
    have name := typeText_nameAfter h.named (typeText_spell hw d.current)
    exact { h.add name ht with named := name }
  have word : TypeText (String.ofList (w.toList.filter isWordChar)) :=
    .ofList fun c hc => typeChar_of_isWordChar (mem_filter.mp hc).2
  unfold Draft.read
  split
  · exact { h with last := .empty }
  · exact { h with last := .empty }
  · exact { h with last := .empty }
  · exact { h with last := .empty }
  · dsimp only
    split
    · next hp =>
      have piece {x : String} (hx : x ∈ Text.splitUpTo (String.ofList (w.toList.filter isWordChar)) ":" 1) :
          TypeText x :=
        fun c hc => word c (Text.mem_splitUpTo hx hc)
      rw [hp] at piece
      exact entry (piece mem_cons_self) (piece (mem_cons_of_mem _ mem_cons_self))
    · exact entry word h.last

theorem finish : d.finish.2.Tame :=
  ⟨.of_mem fun e he => h.members e (mem_reverse.mp he), .of_mem fun e he => h.constants e (mem_reverse.mp he),
    .of_mem fun e he => h.enums e (mem_reverse.mp he)⟩

end Draft.Clean

/-- The classes that are finished and the one that is being read, with clean types. -/
def CleanSo (acc : List (String × ClassInfo) × Option Draft) : Prop :=
  (∀ e ∈ acc.1, e.2.Tame) ∧ ∀ d, acc.2 = some d → d.Clean

theorem step_clean {acc : List (String × ClassInfo) × Option Draft} (h : CleanSo acc) (w : String) :
    CleanSo (step acc w) := by
  unfold step
  split
  · split
    · next d hd =>
      refine ⟨forall_mem_cons.mpr ⟨(h.2 d hd).finish, h.1⟩, ?_⟩
      rintro _ ⟨⟩
      exact header_clean w
    · refine ⟨h.1, ?_⟩
      rintro _ ⟨⟩
      exact header_clean w
  · refine ⟨h.1, fun d hd => ?_⟩
    obtain ⟨d', hd', rfl⟩ := Option.map_eq_some_iff.mp hd
    exact (h.2 d' hd').read w

theorem foldl_step_clean (ws : List String) : ∀ acc, CleanSo acc → CleanSo (ws.foldl step acc) := by
  induction ws with
  | nil => exact fun _ h => h
  | cons w ws ih => exact fun acc h => ih _ (step_clean h w)

end Reference

namespace ClassTable

theorem tame_of_mem {t : ClassTable} (h : ∀ e ∈ t.entries, e.2.Tame) : t.Tame := by
  intro n
  unfold info
  cases found : t.find? n with
  | none => exact .new none
  | some i => exact h _ (Table.mem_of_find? found)

/-- **Every class reference gives types that say nothing about blocks.** -/
theorem ofReference_tame (text : String) : (ofReference text).Tame := by
  obtain ⟨done, last⟩ := Reference.foldl_step_clean (Text.words text) ([], none) ⟨nofun, nofun⟩
  unfold ofReference
  dsimp only
  split
  · next d hd =>
    refine tame_of_mem fun e he => ?_
    rcases mem_cons.mp (mem_reverse.mp he) with rfl | he
    · exact (last d hd).finish
    · exact done e he
  · exact tame_of_mem fun e he => done e (mem_reverse.mp he)

theorem inherit_tame {i base : ClassInfo} (h : i.Tame) (hb : base.Tame) : (ClassInfo.inherit i base).Tame :=
  ⟨h.members.merge hb.members, h.constants.merge hb.constants, h.enums.merge hb.enums⟩

theorem mergeParents_tame {rest : List (String × ClassInfo)} :
    ∀ {t t' : ClassTable}, t.Tame → mergeParents t rest = .ok t' → t'.Tame := by
  induction rest with
  | nil =>
    intro t t' h hm
    cases hm
    exact h
  | cons e rest ih =>
    intro t t' h hm
    rw [mergeParents_cons] at hm
    split at hm
    · exact ih h hm
    · split at hm
      · cases hm
      · next parent found =>
        refine ih (fun n => ?_) hm
        rw [info_update]
        split
        · exact inherit_tame (h n) (info_of_find? found ▸ h _)
        · exact h n

/-- **The types of the built-in classes say nothing about blocks.** -/
theorem builtin_tame : builtin.Tame := by
  have saved : saved.Tame := ofReference_tame _
  unfold builtin flatten
  split
  · exact saved
  · dsimp only
    split
    · cases hm : mergeParents ClassTable.saved (parentsFirst ClassTable.saved.entries) with
      | error e => exact saved
      | ok t => exact mergeParents_tame saved hm
    · exact saved

end ClassTable

end GdScribe
