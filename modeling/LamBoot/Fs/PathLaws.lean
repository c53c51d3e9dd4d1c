import LamBoot.Fs.Path

/-!
# Laws of paths

`PathBuf::from_str` as a walk from the root, one segment at a time, with the strings it refuses; and
how `join`, `parent` and `file_name` of `fs_types.rs` undo each other.
-/

namespace LamBoot

open List Text Except

/-! ### Names and parents -/

namespace Path

def fileName (s : Text) : Text :=
  match rsplitOnce '/' s with
  | some (_, last) => last
  | none => []

def parent (s : Text) : Text :=
  if s = "/" then "/"
  else
    match rsplitOnce '/' s with
    | some (head, _) => if head ≠ [] then head else "/"
    | none => "/"

end Path

/-! ### Walks -/

def IsName (s : Text) : Prop :=
  s ≠ [] ∧ s ≠ "." ∧ s ≠ ".."
deriving Decidable

/-- Where segments lead, from the root on: a name goes down to what has it, and two dots go up. -/
inductive Leads : List Text → List Text → Prop where
  | root : Leads [] []
  | stay {segments place : List Text} {s : Text} (h : Leads segments place)
      (hs : s = [] ∨ s = ".") : Leads (segments ++ [s]) place
  | up {segments place : List Text} {name : Text} (h : Leads segments (place ++ [name])) :
      Leads (segments ++ ["..".toList]) place
  | down {segments place : List Text} {name : Text} (h : Leads segments place)
      (hname : IsName name) : Leads (segments ++ [name]) (place ++ [name])

/-- More steps go up than down. -/
def Escapes (depth : Nat) (segments : List Text) : Prop :=
  depth + segments.countP (fun s => IsName s) < segments.count "..".toList

lemma segment_cases (s : Text) : (s = [] ∨ s = ".") ∨ s = ".." ∨ IsName s := by
  unfold IsName
  tauto

section Segments

variable {stack input rest out place : List Text} {s name : Text}

lemma resolveSegments_stay (hs : s = [] ∨ s = ".") :
    resolveSegments stack (s :: input) = resolveSegments stack input := by
  rw [resolveSegments.eq_def]
  exact if_pos hs

lemma resolveSegments_up (stack input : List Text) :
    resolveSegments stack (".." :: input) =
      match stack with
      | [] => .error .aboveRoot
      | _ :: stack => resolveSegments stack input := by
  rw [resolveSegments.eq_def]
  exact (if_neg (by decide)).trans (if_pos rfl)

lemma resolveSegments_name (hs : IsName s) :
    resolveSegments stack (s :: input) = resolveSegments (s :: stack) input := by
  rw [resolveSegments.eq_def]
  exact (if_neg (not_or.mpr ⟨hs.1, hs.2.1⟩)).trans (if_neg hs.2.2)

lemma resolveSegments_append (stack input rest : List Text) :
    resolveSegments stack (input ++ rest) =
      resolveSegments stack input >>= fun out => resolveSegments out.reverse rest := by
  induction input generalizing stack with
  | nil =>
    change _ = resolveSegments stack.reverse.reverse rest
    rw [reverse_reverse, nil_append]
  | cons s input ih =>
    rw [cons_append]
    rcases segment_cases s with hs | rfl | hs
    · rw [resolveSegments_stay hs, resolveSegments_stay hs, ih]
    · rw [resolveSegments_up, resolveSegments_up]
      cases stack with
      | nil => rfl
      | cons _ stack => exact ih stack
    · rw [resolveSegments_name hs, resolveSegments_name hs, ih]

lemma resolveSegments_of_names (hinput : ∀ s ∈ input, IsName s) (stack : List Text) :
    resolveSegments stack input = .ok (stack.reverse ++ input) := by
  induction input generalizing stack with
  | nil => rw [append_nil]; rfl
  | cons s input ih =>
    obtain ⟨hs, hinput⟩ := forall_mem_cons.mp hinput
    rw [resolveSegments_name hs, ih hinput]
    simp

lemma leads_of_resolveSegments (h : resolveSegments [] input = .ok place) : Leads input place := by
  induction input using reverseRecOn generalizing place with
  | nil =>
    obtain rfl : [] = place := ok.inj h
    exact .root
  | append_singleton input s ih =>
    rw [resolveSegments_append] at h
    cases hout : resolveSegments [] input with
    | error e =>
      rw [hout] at h
      cases h
    | ok out =>
      rw [hout] at h
      change resolveSegments out.reverse [s] = .ok place at h
      rcases segment_cases s with hs | rfl | hs
      · rw [resolveSegments_stay hs] at h
        obtain rfl : out.reverse.reverse = place := ok.inj h
        rw [reverse_reverse]
        exact .stay (ih hout) hs
      · rw [resolveSegments_up] at h
        cases hstack : out.reverse with
        | nil =>
          rw [hstack] at h
          cases h
        | cons name stack =>
          rw [hstack] at h
          obtain rfl : stack.reverse = place := ok.inj h
          have hup : Leads input (stack.reverse ++ [name]) := by
            refine ih ?_
            rw [hout, ← reverse_cons, ← hstack, reverse_reverse]
          exact .up hup
      · rw [resolveSegments_name hs] at h
        obtain rfl : (s :: out.reverse).reverse = place := ok.inj h
        rw [reverse_cons, reverse_reverse]
        exact .down (ih hout) hs

lemma Leads.resolveSegments (h : Leads input place) : resolveSegments [] input = .ok place := by
  induction h with
  | root => rfl
  | @stay segments place s _ hs ih =>
    rw [resolveSegments_append, ih]
    change LamBoot.resolveSegments place.reverse [s] = _
    rw [resolveSegments_stay hs]
    exact congrArg ok (reverse_reverse place)
  | @up segments place name _ ih =>
    rw [resolveSegments_append, ih]
    change LamBoot.resolveSegments (place ++ [name]).reverse _ = _
    rw [reverse_append, reverse_singleton, singleton_append, resolveSegments_up]
    exact congrArg ok (reverse_reverse place)
  | @down segments place name _ hname ih =>
    rw [resolveSegments_append, ih]
    change LamBoot.resolveSegments place.reverse [name] = _
    rw [resolveSegments_name hname]
    exact congrArg ok (by simp)

lemma escapes_stay {depth : Nat} (hs : s = [] ∨ s = ".") :
    Escapes depth (s :: input) ↔ Escapes depth input := by
  have hname : ¬ IsName s := fun h => hs.elim h.1 h.2.1
  have hne : s ≠ ".." := by
    rintro rfl
    exact absurd hs (by decide)
  rw [Escapes, Escapes, countP_cons_of_neg (by simpa using hname), count_cons_of_ne hne]

lemma escapes_up {depth : Nat} :
    Escapes depth (".." :: input) ↔
      depth + input.countP (fun s => IsName s) ≤ input.count "..".toList := by
  have hname : ¬ IsName ".." := by decide
  rw [Escapes, countP_cons_of_neg (by simpa using hname), count_cons_self, Nat.lt_succ_iff]

lemma escapes_name {depth : Nat} (hs : IsName s) :
    Escapes depth (s :: input) ↔ Escapes (depth + 1) input := by
  rw [Escapes, Escapes, countP_cons_of_pos (by simpa using hs), count_cons_of_ne hs.2.2]
  omega

lemma resolveSegments_eq_error_iff :
    (∃ e, resolveSegments stack input = .error e) ↔
      ∃ before, before <+: input ∧ Escapes stack.length before := by
  induction input generalizing stack with
  | nil =>
    refine iff_of_false nofun ?_
    rintro ⟨before, hbefore, hlt⟩
    rw [prefix_nil.mp hbefore] at hlt
    simp [Escapes] at hlt
  | cons s input ih =>
    have hcons : (∃ before, before <+: s :: input ∧ Escapes stack.length before) ↔
        ∃ before, before <+: input ∧ Escapes stack.length (s :: before) := by
      constructor
      · rintro ⟨_ | ⟨s', before⟩, hbefore, hlt⟩
        · simp [Escapes] at hlt
        · obtain ⟨rfl, hrest⟩ := cons_prefix_cons.mp hbefore
          exact ⟨before, hrest, hlt⟩
      · rintro ⟨before, hbefore, hlt⟩
        exact ⟨s :: before, cons_prefix_cons.mpr ⟨rfl, hbefore⟩, hlt⟩
    rw [hcons]
    rcases segment_cases s with hs | rfl | hs
    · rw [resolveSegments_stay hs, ih]
      exact exists_congr fun _ => and_congr_right fun _ => (escapes_stay hs).symm
    · rw [resolveSegments_up]
      cases stack with
      | nil => exact iff_of_true ⟨_, rfl⟩ ⟨[], nil_prefix, escapes_up.mpr (by simp)⟩
      | cons _ stack =>
        dsimp only
        rw [ih]
        refine exists_congr fun _ => and_congr_right fun _ => ?_
        rw [escapes_up, Escapes, length_cons]
        omega
    · rw [resolveSegments_name hs, ih]
      exact exists_congr fun _ => and_congr_right fun _ => (escapes_name hs).symm

end Segments

/-! ### Strings -/

namespace PathBuf

variable {p q : PathBuf} {s child : Text}

lemma ext_segments (h : p.segments = q.segments) : p = q := by
  cases p
  cases q
  congr

lemma isName (hs : s ∈ p.segments) : IsName s :=
  ⟨(p.proper s hs).1, (p.proper s hs).2.1, (p.proper s hs).2.2.1⟩

lemma map_segments_fromStr (hs : s.head? = some '/') :
    (fromStr s).map segments = resolveSegments [] (s.splitOn '/') := by
  have hne : s ≠ [] := by
    rintro rfl
    cases hs
  rw [fromStr, if_neg hne, if_neg (not_not.mpr hs)]
  split
  · next h => exact h.symm
  · next h => exact h.symm

lemma eq_of_map_segments {r r' : Except PathError PathBuf}
    (h : r.map segments = r'.map segments) : r = r' := by
  cases r with
  | error e =>
    cases r' with
    | error e' => exact congrArg error (error.inj h)
    | ok q => cases h
  | ok p =>
    cases r' with
    | error e' => cases h
    | ok q => exact congrArg ok (ext_segments (ok.inj h))

lemma fromStr_eq_ok_iff :
    fromStr s = .ok p ↔ s.head? = some '/' ∧ Leads (s.splitOn '/') p.segments := by
  constructor
  · intro h
    have hs : s.head? = some '/' := by
      unfold fromStr at h
      split_ifs at h with h1 h2
      exact not_not.mp h2
    refine ⟨hs, leads_of_resolveSegments ?_⟩
    rw [← map_segments_fromStr hs, h]
    rfl
  · rintro ⟨hs, h⟩
    refine eq_of_map_segments ?_
    rw [map_segments_fromStr hs, h.resolveSegments]
    rfl

lemma fromStr_eq_error_iff : (∃ e, fromStr s = .error e) ↔
    s = [] ∨ s.head? ≠ some '/' ∨ ∃ before, before <+: s.splitOn '/' ∧ Escapes 0 before := by
  by_cases hs : s.head? = some '/'
  · have hne : s ≠ [] := by
      rintro rfl
      cases hs
    have herror : (∃ e, fromStr s = .error e) ↔
        ∃ e, resolveSegments [] (s.splitOn '/') = .error e := by
      rw [← map_segments_fromStr hs]
      cases fromStr s <;> simp [Except.map]
    rw [herror, resolveSegments_eq_error_iff, or_iff_right hne, or_iff_right (not_not.mpr hs)]
    rfl
  · refine iff_of_true ?_ (.inr (.inl hs))
    unfold fromStr
    split_ifs
    · exact ⟨_, rfl⟩
    · exact ⟨_, rfl⟩

/-! ### The string of a path -/

lemma splitOn_flatMap {segments : List Text} (h : ∀ s ∈ segments, '/' ∉ s) :
    (segments.flatMap ('/' :: ·)).splitOn '/' = [] :: segments := by
  induction segments with
  | nil => rfl
  | cons s segments ih =>
    obtain ⟨hs, hsegments⟩ := forall_mem_cons.mp h
    rw [flatMap_cons, cons_append, splitOn_cons_eq_if_modifyHead, if_pos (by simp),
      splitOn_append_of_not_mem hs, ih hsegments]
    simp

lemma asStr_root (h : p.segments = []) : p.asStr = "/" :=
  if_pos h

lemma splitOn_asStr (h : p.segments ≠ []) : p.asStr.splitOn '/' = [] :: p.segments := by
  rw [asStr, if_neg h]
  exact splitOn_flatMap fun s hs => (p.proper s hs).2.2.2

lemma head?_asStr (p : PathBuf) : p.asStr.head? = some '/' := by
  unfold asStr
  split_ifs with h
  · rfl
  · obtain ⟨s, segments, hp⟩ := exists_cons_of_ne_nil h
    rw [hp]
    rfl

lemma asStr_concat {before : List Text} {last : Text} (h : p.segments = before ++ [last]) :
    p.asStr = before.flatMap ('/' :: ·) ++ '/' :: last := by
  rw [asStr, if_neg (by simp [h]), h]
  simp

lemma exists_concat (h : p.segments ≠ []) : ∃ before last, p.segments = before ++ [last] :=
  ⟨_, _, (dropLast_append_getLast h).symm⟩

lemma getLast?_asStr (h : p.segments ≠ []) : p.asStr.getLast? ≠ some '/' := by
  obtain ⟨before, last, hp⟩ := exists_concat h
  have hlast := p.proper last (by simp [hp])
  intro heq
  rw [asStr_concat hp, getLast?_append, getLast?_cons, Option.some_or,
    Option.some.injEq] at heq
  -- the last character is one of the last segment
  obtain ⟨s, hs⟩ : ∃ d, last.getLast? = some d :=
    ⟨_, getLast?_eq_some_getLast hlast.1⟩
  rw [hs, Option.getD_some] at heq
  exact hlast.2.2.2 (heq ▸ mem_of_getLast? hs)

lemma fromStr_asStr (p : PathBuf) : fromStr p.asStr = .ok p := by
  refine eq_of_map_segments ?_
  rw [map_segments_fromStr p.head?_asStr]
  by_cases h : p.segments = []
  · rw [asStr_root h]
    exact congrArg ok h.symm
  · rw [splitOn_asStr h, resolveSegments_stay (.inl rfl),
      resolveSegments_of_names fun s hs => p.isName hs]
    rfl

lemma map_segments_join (hchild : child.head? ≠ some '/') :
    (p.join child).map segments = resolveSegments p.segments.reverse (child.splitOn '/') := by
  unfold join
  rw [if_neg hchild]
  by_cases h : p.segments = []
  · have hsplit : ("/" ++ child).splitOn '/' = [] :: child.splitOn '/' :=
      splitOn_append_cons_self [] child
    rw [asStr_root h, if_pos (by decide), map_segments_fromStr (by rfl), hsplit,
      resolveSegments_stay (.inl rfl), h]
    rfl
  · rw [if_neg (getLast?_asStr h), map_segments_fromStr ?_, splitOn_append_cons_self,
      splitOn_asStr h, resolveSegments_append, resolveSegments_stay (.inl rfl),
      resolveSegments_of_names fun s hs => p.isName hs]
    · rfl
    · rw [head?_append, p.head?_asStr]
      rfl

lemma join_join (p : PathBuf) {c d : Text} (hne : c ≠ []) (hc : c.head? ≠ some '/')
    (hd : d.head? ≠ some '/') : (p.join c >>= fun q => q.join d) = p.join (c ++ '/' :: d) := by
  have hboth : (c ++ '/' :: d).head? ≠ some '/' := by
    obtain ⟨a, c, rfl⟩ := exists_cons_of_ne_nil hne
    exact hc
  refine eq_of_map_segments ?_
  rw [map_segments_join hboth, splitOn_append_cons_self, resolveSegments_append,
    ← map_segments_join hc]
  cases p.join c with
  | error e => rfl
  | ok q => exact map_segments_join hd

/-- `Path::parent`, as a path. -/
def parent (p : PathBuf) : PathBuf :=
  ⟨p.segments.dropLast, fun s hs => p.proper s (mem_of_mem_dropLast hs)⟩

lemma segments_parent (p : PathBuf) : p.parent.segments = p.segments.dropLast :=
  rfl

lemma asStr_parent (p : PathBuf) : p.parent.asStr = Path.parent p.asStr := by
  by_cases h : p.segments = []
  · have hparent : p.parent.segments = [] := by rw [segments_parent, h]; rfl
    rw [asStr_root hparent, asStr_root h, Path.parent, if_pos rfl]
  obtain ⟨before, last, hp⟩ := exists_concat h
  have hlast := p.proper last (by simp [hp])
  have hsplit : rsplitOnce '/' p.asStr = some (before.flatMap ('/' :: ·), last) :=
    rsplitOnce_eq_some_iff.mpr ⟨asStr_concat hp, hlast.2.2.2⟩
  have hroot : p.asStr ≠ "/" := by
    intro heq
    exact getLast?_asStr h (by rw [heq]; rfl)
  have hparent : p.parent.segments = before := by
    rw [segments_parent, hp, dropLast_concat]
  rw [Path.parent, if_neg hroot, hsplit, asStr, hparent]
  cases before with
  | nil => rfl
  | cons s before => rfl

lemma join_parent (h : p.segments ≠ []) :
    ∃ q : PathBuf, Path.parent p.asStr = q.asStr ∧ q.join (Path.fileName p.asStr) = .ok p := by
  obtain ⟨before, last, hp⟩ := exists_concat h
  have hlast := p.proper last (by simp [hp])
  have hsplit : rsplitOnce '/' p.asStr = some (before.flatMap ('/' :: ·), last) :=
    rsplitOnce_eq_some_iff.mpr ⟨asStr_concat hp, hlast.2.2.2⟩
  refine ⟨p.parent, p.asStr_parent.symm, ?_⟩
  rw [Path.fileName, hsplit]
  refine eq_of_map_segments ?_
  rw [map_segments_join fun hhead => hlast.2.2.2 (mem_of_head? hhead),
    splitOn_eq_singleton hlast.2.2.2, resolveSegments_of_names]
  · simp [Except.map, hp, segments_parent]
  · intro s hs
    rw [mem_singleton.mp hs]
    exact p.isName (by simp [hp])

end PathBuf

/-- Paths agree with a walk from the root, and the operations on them undo each other. -/
theorem pathBuf_laws :
    (∀ s p, PathBuf.fromStr s = .ok p ↔
      s.head? = some '/' ∧ Leads (s.splitOn '/') p.segments) ∧
    (∀ s, (∃ e, PathBuf.fromStr s = .error e) ↔
      s = [] ∨ s.head? ≠ some '/' ∨ ∃ before, before <+: s.splitOn '/' ∧ Escapes 0 before) ∧
    (∀ p : PathBuf, p.asStr.head? = some '/' ∧ PathBuf.fromStr p.asStr = .ok p ∧
      (p.asStr = "/" ∨ p.asStr.getLast? ≠ some '/' ∧ p.segments ≠ [] ∧
        p.asStr.splitOn '/' = [] :: p.segments ∧ ∀ s ∈ p.segments, ProperSegment s)) ∧
    (∀ p : PathBuf, p.asStr ≠ "/" → ∃ q : PathBuf,
      Path.parent p.asStr = q.asStr ∧ q.join (Path.fileName p.asStr) = .ok p) ∧
    ∀ (p : PathBuf) (c d : Text), c ≠ [] → c.head? ≠ some '/' → d.head? ≠ some '/' →
      (p.join c >>= fun q => q.join d) = p.join (c ++ '/' :: d) := by
  refine ⟨fun _ _ => PathBuf.fromStr_eq_ok_iff, fun _ => PathBuf.fromStr_eq_error_iff,
    fun p => ⟨p.head?_asStr, p.fromStr_asStr, ?_⟩, fun p hp => ?_, fun p _ _ => p.join_join⟩
  · by_cases h : p.segments = []
    · exact .inl (PathBuf.asStr_root h)
    · exact .inr ⟨PathBuf.getLast?_asStr h, h, PathBuf.splitOn_asStr h, p.proper⟩
  · exact PathBuf.join_parent fun h => hp (PathBuf.asStr_root h)

end LamBoot
