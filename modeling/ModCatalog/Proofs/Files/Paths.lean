import Mathlib.Tactic.SplitIfs
import ModCatalog.Files.Tree
import ModCatalog.Proofs.Text.Split

/-!
# Written paths and the places they lead to

The parts of a written path decide where it leads, if it leads anywhere.
-/

namespace ModCatalog

namespace Path

/-- The names of a written path that lead anywhere, without the root. -/
def moves (text : String) : List String := (names text).filter fun name => !isStay name

/-- Whether a name leads into the directory or to the file of this name. -/
def IsPlain (name : String) : Prop := '/' ∉ name.toList ∧ ¬isStay name ∧ name ≠ backPart

instance (name : String) : Decidable (IsPlain name) := inferInstanceAs (Decidable (_ ∧ _ ∧ _))

theorem parts_eq (text : String) :
    parts text = if isAbsolute text then rootPart :: moves text else moves text := rfl

theorem rootPart_not_mem_names (text : String) : rootPart ∉ names text := by
  intro hroot
  obtain ⟨part, hpart, hname⟩ := List.mem_map.mp hroot
  have hslash : '/' ∈ part := by
    have hchars := congrArg String.toList hname
    rw [String.toList_ofList] at hchars
    rw [hchars]
    decide
  have hno := Text.test_of_mem_splitAll hpart '/' hslash
  simp at hno

/-- Paths of the same parts start at the same place and go on by the same names. -/
theorem moves_eq_of_parts_eq {text other : String} (hparts : parts text = parts other) :
    isAbsolute text = isAbsolute other ∧ moves text = moves other := by
  have hnotRoot : ∀ (written : String) {rest : List String}, moves written ≠ rootPart :: rest := by
    intro written rest heq
    have hmem : rootPart ∈ moves written := by
      rw [heq]
      exact List.mem_cons_self
    exact rootPart_not_mem_names written (List.mem_filter.mp hmem).1
  rw [parts_eq, parts_eq] at hparts
  cases htext : isAbsolute text <;> cases hother : isAbsolute other <;>
    simp only [htext, hother, if_true, Bool.false_eq_true, if_false] at hparts
  case false.false => exact ⟨rfl, hparts⟩
  case false.true => exact absurd hparts (hnotRoot text)
  case true.false => exact absurd hparts.symm (hnotRoot other)
  case true.true => exact ⟨rfl, (List.cons.inj hparts).2⟩

theorem names_of_isPlain {name : String} (hplain : IsPlain name) : names name = [name] := by
  have hnone : ∀ c ∈ name.toList, decide (c = '/') = false := by
    intro c hc
    rw [decide_eq_false_iff_not]
    rintro rfl
    exact hplain.1 hc
  unfold names
  rw [Text.splitAll_eq_self hnone, List.map_singleton, String.ofList_toList]

theorem names_append_slash (base rest : String) :
    names (base ++ "/" ++ rest) = names base ++ names rest := by
  have hchars : (base ++ "/" ++ rest).toList = base.toList ++ '/' :: rest.toList := by simp
  unfold names
  rw [hchars, Text.splitAll_append (by simp), List.map_append]

theorem isAbsolute_append {base : String} (hbase : base.isEmpty = false) (rest : String) :
    isAbsolute (base ++ rest) = isAbsolute base := by
  unfold isAbsolute
  rw [String.toList_append]
  cases hchars : base.toList with
  | nil =>
      rw [String.toList_eq_nil_iff.mp hchars] at hbase
      cases hbase
  | cons first others => rfl

/-- A plain name that follows a path is its last move. -/
theorem moves_joinText {base name : String} (hbase : base.isEmpty = false) (hplain : IsPlain name) :
    isAbsolute (joinText base name) = isAbsolute base ∧
      moves (joinText base name) = moves base ++ [name] := by
  have hrelative : isAbsolute name = false := by
    unfold isAbsolute
    rw [decide_eq_false_iff_not]
    intro hhead
    exact hplain.1 (List.mem_of_head? hhead)
  have hname : [name].filter (fun name => !isStay name) = [name] := by
    simpa using hplain.2.1
  unfold joinText
  rw [hrelative, hbase]
  simp only [Bool.false_eq_true, if_false, Bool.false_or, decide_eq_true_eq]
  split
  · next hslash =>
      obtain ⟨front, hfront⟩ := List.getLast?_eq_some_iff.mp hslash
      -- the slash at the end of the path leads nowhere
      have hended : base = String.ofList front ++ "/" ++ "" := by
        apply String.toList_injective
        simp [hfront]
      have hjoined : base ++ name = String.ofList front ++ "/" ++ name := by
        apply String.toList_injective
        simp [hfront]
      refine ⟨isAbsolute_append hbase name, ?_⟩
      have hmoves : moves base = moves (String.ofList front) := by
        unfold moves
        rw [hended, names_append_slash, List.filter_append]
        exact List.append_nil _
      unfold moves at hmoves ⊢
      rw [hjoined, hmoves, names_append_slash, List.filter_append, names_of_isPlain hplain, hname]
  · refine ⟨?_, ?_⟩
    · rw [String.append_assoc, isAbsolute_append hbase]
    · unfold moves
      rw [names_append_slash, List.filter_append, names_of_isPlain hplain, hname]

theorem parts_joinText {base name : String} (hbase : base.isEmpty = false)
    (hplain : IsPlain name) : parts (joinText base name) = parts base ++ [name] := by
  obtain ⟨habsolute, hmoves⟩ := moves_joinText hbase hplain
  rw [parts_eq, parts_eq, habsolute, hmoves]
  split <;> rfl

end Path

namespace FileTree

variable {tree : FileTree}

/-- A name that stays leads to the same place, if it leads anywhere. -/
theorem eq_of_enter_stay {place next : Path} {name : String} (hstay : Path.isStay name)
    (henter : tree.enter place name = .ok next) : next = place := by
  unfold enter follow at henter
  rw [if_pos hstay] at henter
  split at henter
  · cases henter
  · cases henter
    rfl

theorem eq_of_enter_plain {place next : Path} {name : String} (hplain : Path.IsPlain name)
    (henter : tree.enter place name = .ok next) : next = place ++ [name] := by
  unfold enter follow at henter
  rw [if_neg hplain.2.1, if_neg hplain.2.2] at henter
  dsimp only at henter
  split_ifs at henter
  exact (Except.ok.inj henter).symm

theorem moves_of_enter {names : List String} {place last : Path}
    (hlast : names.foldlM tree.enter place = .ok last) :
    (names.filter fun name => !Path.isStay name).foldlM tree.enter place = .ok last := by
  induction names generalizing place with
  | nil => exact hlast
  | cons name rest ih =>
      rw [List.foldlM_cons] at hlast
      cases henter : tree.enter place name with
      | error failure =>
          rw [henter] at hlast
          cases hlast
      | ok next =>
          rw [henter] at hlast
          have hrest := ih hlast
          by_cases hstay : Path.isStay name
          · obtain rfl := eq_of_enter_stay hstay henter
            rw [List.filter_cons_of_neg (by simpa using hstay)]
            exact hrest
          · rw [List.filter_cons_of_pos (by simpa using hstay), List.foldlM_cons, henter]
            exact hrest

theorem moves_of_find {text : String} {place : Path} (hfind : tree.find text = .ok place) :
    text.isEmpty = false ∧ (Path.moves text).foldlM tree.enter (tree.start text) = .ok place := by
  unfold find at hfind
  cases hcheck : checkText text with
  | error failure =>
      rw [hcheck] at hfind
      cases hfind
  | ok value =>
      rw [hcheck] at hfind
      refine ⟨?_, moves_of_enter hfind⟩
      unfold checkText at hcheck
      cases hempty : text.isEmpty with
      | false => rfl
      | true =>
          rw [hempty, if_pos rfl] at hcheck
          split at hcheck <;> cases hcheck

/-- Two written paths of the same parts lead to one place, if both lead anywhere. -/
theorem place_eq_of_parts_eq {text other : String} {place last : Path}
    (hparts : Path.parts text = Path.parts other) (htext : tree.find text = .ok place)
    (hother : tree.find other = .ok last) : place = last := by
  obtain ⟨habsolute, hmoves⟩ := Path.moves_eq_of_parts_eq hparts
  have hplace := (moves_of_find htext).2
  have hlast := (moves_of_find hother).2
  unfold start at hplace hlast
  rw [habsolute, hmoves] at hplace
  exact Except.ok.inj (hplace.symm.trans hlast)

/-- A plain name after a path leads into the place of the path. -/
theorem place_of_joinText {base name : String} {place last : Path} (hplain : Path.IsPlain name)
    (hbase : tree.find base = .ok place) (hlast : tree.find (Path.joinText base name) = .ok last) :
    last = place ++ [name] := by
  obtain ⟨hwritten, hplace⟩ := moves_of_find hbase
  obtain ⟨habsolute, hmoves⟩ := Path.moves_joinText hwritten hplain
  have henter := (moves_of_find hlast).2
  unfold start at hplace henter
  rw [habsolute, hmoves, List.foldlM_append, hplace] at henter
  have hstep : tree.enter place name = .ok last := by
    rw [← bind_pure (tree.enter place name)]
    exact henter
  exact eq_of_enter_plain hplain hstep

end FileTree

end ModCatalog
