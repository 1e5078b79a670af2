import Placeholder.Proofs.Searching
import Placeholder.Text.Style

/-!
# Runs of a class of characters

The longest runs of a class of characters in a text, and the gaps between them. Where every gap is
filled with the same text, the runs come out joined by this text, and it also stands at those ends
of the whole where the text has a gap.
-/

namespace Placeholder.Text

/-- The longest runs of `p` characters in a text, in their order. -/
def runs (p : Char → Bool) (cs : List Char) : List (List Char) :=
  (splitBy (fun c => !p c) cs).filter fun w => !w.isEmpty

def IsRun (p : Char → Bool) (w : List Char) : Prop :=
  w ≠ [] ∧ ∀ c ∈ w, p c = true

def IsGap (p : Char → Bool) (g : List Char) : Prop :=
  g ≠ [] ∧ ∀ c ∈ g, p c = false

variable {p : Char → Bool} {cs : List Char}

theorem nameWords_eq_runs (cs : List Char) : nameWords cs = runs isAsciiAlnum cs := rfl

theorem isRun_of_mem_runs {w : List Char} (h : w ∈ runs p cs) : IsRun p w := by
  obtain ⟨hpiece, hne⟩ := List.mem_filter.mp h
  exact ⟨by simpa using hne, fun c hc => by simpa using (mem_of_mem_splitBy hpiece hc).2⟩

theorem IsGap.not_mem {g : List Char} (h : IsGap p g) {c : Char} (hc : p c = true) : c ∉ g := by
  intro hmem
  rw [h.2 c hmem] at hc
  contradiction

/-- What is left when the characters of the class are dropped in front. -/
theorem eq_false_of_mem_head?_dropWhile (p : Char → Bool) (cs : List Char) :
    ∀ c ∈ (cs.dropWhile p).head?, p c = false := by
  intro c hc
  have hhead := List.head?_dropWhile_not p cs
  rw [hc] at hhead
  exact hhead

/-! ### Runs and gaps one behind the other -/

theorem runs_gap_append {g : List Char} (hg : ∀ c ∈ g, p c = false) (cs : List Char) :
    runs p (g ++ cs) = runs p cs := by
  induction g with
  | nil => rfl
  | cons c g ih =>
    obtain ⟨hc, hrest⟩ := List.forall_mem_cons.mp hg
    have hsplit : splitBy (fun c => !p c) (c :: (g ++ cs)) =
        [] :: splitBy (fun c => !p c) (g ++ cs) := by
      rw [splitBy, hc, Bool.not_false, if_pos rfl]
    rw [List.cons_append, runs, hsplit]
    exact ih hrest

theorem runs_of_gap {g : List Char} (hg : ∀ c ∈ g, p c = false) : runs p g = [] := by
  have h := runs_gap_append hg []
  rwa [List.append_nil] at h

theorem runs_run_append {w : List Char} (hw : IsRun p w) (hcs : ∀ c ∈ cs.head?, p c = false) :
    runs p (w ++ cs) = w :: runs p cs := by
  have hwhole : splitBy (fun c => !p c) w = [w] :=
    splitBy_of_forall fun c hc => by rw [hw.2 c hc, Bool.not_true]
  cases cs with
  | nil => simp [runs, hwhole, hw.1, splitBy]
  | cons c cs =>
    have hc : p c = false := hcs c rfl
    have hcut := splitBy_append_cons (p := fun c => !p c) (by rw [hc, Bool.not_false]) w cs
    have hgap := runs_gap_append (p := p) (g := [c]) (by simpa using hc) cs
    rw [List.singleton_append] at hgap
    rw [hgap, runs, hcut, hwhole]
    simp [runs, hw.1]

theorem runs_of_run {w : List Char} (hw : IsRun p w) : runs p w = [w] := by
  have h : runs p (w ++ []) = w :: runs p [] := runs_run_append hw (by simp)
  rwa [List.append_nil] at h

/-- Runs with gaps between them are the runs of the whole. -/
theorem runs_spread {first : List Char} {rest : List (List Char × List Char)}
    (hfirst : IsRun p first) (hrest : ∀ e ∈ rest, IsGap p e.1 ∧ IsRun p e.2) :
    runs p (first ++ rest.flatMap fun e => e.1 ++ e.2) = first :: rest.map Prod.snd := by
  induction rest generalizing first with
  | nil => rw [List.flatMap_nil, List.append_nil, runs_of_run hfirst, List.map_nil]
  | cons e rest ih =>
    obtain ⟨⟨hgap, hrun⟩, hothers⟩ := List.forall_mem_cons.mp hrest
    have hhead : ∀ c ∈ ((e :: rest).flatMap fun e => e.1 ++ e.2).head?, p c = false := by
      obtain ⟨c, g, hg⟩ := List.exists_cons_of_ne_nil hgap.1
      intro d hd
      rw [List.flatMap_cons, hg, List.cons_append, List.cons_append, List.head?_cons] at hd
      rw [← Option.some.inj hd]
      exact hgap.2 c (hg ▸ List.mem_cons_self)
    rw [runs_run_append hfirst hhead, List.flatMap_cons, List.append_assoc,
      runs_gap_append hgap.2, ih hrun hothers, List.map_cons]

theorem intercalate_eq_flatMap (e w : List Char) (ws : List (List Char)) :
    e.intercalate (w :: ws) = w ++ ws.flatMap (e ++ ·) := by
  induction ws generalizing w with
  | nil => simp
  | cons next ws ih => rw [List.intercalate_cons_cons, ih, List.flatMap_cons]; simp

theorem mem_intercalate {e : List Char} {ws : List (List Char)} {c : Char}
    (h : c ∈ e.intercalate ws) : c ∈ e ∨ ∃ w ∈ ws, c ∈ w := by
  cases ws with
  | nil => cases h
  | cons w ws =>
    simp only [intercalate_eq_flatMap, List.mem_append, List.mem_flatMap] at h
    rcases h with hw | ⟨v, hv, he | hc⟩
    · exact Or.inr ⟨w, List.mem_cons_self, hw⟩
    · exact Or.inl he
    · exact Or.inr ⟨v, List.mem_cons_of_mem w hv, hc⟩

theorem runs_intercalate {e : List Char} (he : IsGap p e) {ws : List (List Char)}
    (hws : ∀ w ∈ ws, IsRun p w) : runs p (e.intercalate ws) = ws := by
  cases ws with
  | nil => rfl
  | cons w ws =>
    obtain ⟨hw, hothers⟩ := List.forall_mem_cons.mp hws
    have hspread : runs p (w ++ (ws.map fun v => (e, v)).flatMap fun f => f.1 ++ f.2) =
        w :: (ws.map fun v => (e, v)).map Prod.snd :=
      runs_spread hw (by simpa [he] using hothers)
    rw [List.flatMap_map, List.map_map] at hspread
    rw [intercalate_eq_flatMap, hspread]
    simp

/-- A text with a run in it begins and ends with runs when these are joined. -/
theorem exists_edges {e w : List Char} {ws : List (List Char)} (hws : ∀ v ∈ w :: ws, IsRun p v) :
    (∃ c back, p c = true ∧ e.intercalate (w :: ws) = c :: back) ∧
      ∃ front d, p d = true ∧ e.intercalate (w :: ws) = front ++ [d] := by
  constructor
  · have hw := hws w List.mem_cons_self
    obtain ⟨c, cs, rfl⟩ := List.exists_cons_of_ne_nil hw.1
    exact ⟨c, cs ++ ws.flatMap (e ++ ·), hw.2 c List.mem_cons_self, intercalate_eq_flatMap e _ ws⟩
  · induction ws generalizing w with
    | nil =>
      have hw := hws w List.mem_cons_self
      obtain ⟨front, d, rfl⟩ := (List.eq_nil_or_concat' w).resolve_left hw.1
      exact ⟨front, d, hw.2 d (by simp), List.intercalate_singleton⟩
    | cons next ws ih =>
      obtain ⟨front, d, hd, heq⟩ := ih (List.forall_mem_cons.mp hws).2
      refine ⟨w ++ e ++ front, d, hd, ?_⟩
      rw [List.intercalate_cons_cons, heq]
      simp

/-! ### A text as gaps and runs in turn -/

/-- A text is a gap, or it has a run behind what may be a gap, and a text that does not carry on the
run. -/
theorem runs_induction {motive : List Char → Prop}
    (gap : ∀ g, (∀ c ∈ g, p c = false) → motive g)
    (run : ∀ g w cs, (∀ c ∈ g, p c = false) → IsRun p w → (∀ c ∈ cs.head?, p c = false) →
      motive cs → motive (g ++ w ++ cs)) (cs : List Char) : motive cs := by
  induction hn : cs.length using Nat.strongRecOn generalizing cs with
  | ind n ih =>
    subst hn
    have hg : ∀ c ∈ cs.takeWhile fun c => !p c, p c = false := fun c hc => by
      simpa using List.mem_takeWhile_imp hc
    have hwhole := List.takeWhile_append_dropWhile (p := fun c => !p c) (l := cs)
    have hhead := List.head?_dropWhile_not (fun c => !p c) cs
    rcases hrest : cs.dropWhile (fun c => !p c) with _ | ⟨c, rest⟩
    · rw [hrest, List.append_nil] at hwhole
      rw [← hwhole]
      exact gap _ hg
    · rw [hrest] at hwhole hhead
      have hc : p c = true := by simpa using hhead
      have hw : IsRun p ((c :: rest).takeWhile p) := by
        refine ⟨?_, fun d hd => List.mem_takeWhile_imp hd⟩
        rw [List.takeWhile_cons_of_pos hc]
        exact List.cons_ne_nil _ _
      have hends := eq_false_of_mem_head?_dropWhile p (c :: rest)
      have hshort : ((c :: rest).dropWhile p).length < cs.length := by
        have hlength := congrArg List.length hwhole
        have hdrop := (List.dropWhile_suffix p (l := rest)).length_le
        rw [List.length_append, List.length_cons] at hlength
        rw [List.dropWhile_cons_of_pos hc]
        omega
      have hsplit := List.takeWhile_append_dropWhile (p := p) (l := c :: rest)
      rw [← hwhole, ← hsplit, ← List.append_assoc]
      exact run _ _ _ hg hw hends (ih _ hshort _ rfl)

/-! ### Filling the gaps -/

variable {e : List Char}

theorem fillRuns_run_append {w : List Char} (hw : ∀ c ∈ w, p c = true) (cs : List Char) :
    fillRuns (fun c => !p c) (fun _ => e) (w ++ cs) =
      w ++ fillRuns (fun c => !p c) (fun _ => e) cs := by
  induction w with
  | nil => rfl
  | cons c w ih =>
    obtain ⟨hc, hrest⟩ := List.forall_mem_cons.mp hw
    have hnext := ih hrest
    unfold fillRuns at hnext ⊢
    rw [List.cons_append, fillRunsFrom, hc]
    simp [hnext]

/-- The gap that lies behind makes no difference but that there is one. -/
theorem fillRunsFrom_gap_append {run g : List Char} (hrun : run ≠ []) (hg : ∀ c ∈ g, p c = false)
    (hcs : ∀ c ∈ cs.head?, p c = true) :
    fillRunsFrom (fun c => !p c) (fun _ => e) run (g ++ cs) =
      e ++ fillRuns (fun c => !p c) (fun _ => e) cs := by
  induction g generalizing run with
  | nil =>
    cases cs with
    | nil => simp [fillRuns, fillRunsFrom, hrun]
    | cons c cs => simp [fillRuns, fillRunsFrom, hrun, hcs c rfl]
  | cons c g ih =>
    obtain ⟨hc, hrest⟩ := List.forall_mem_cons.mp hg
    rw [List.cons_append, fillRunsFrom, hc, Bool.not_false, if_pos rfl]
    exact ih (by simp) hrest

theorem fillRuns_gap_append {g : List Char} (hg : IsGap p g) (hcs : ∀ c ∈ cs.head?, p c = true) :
    fillRuns (fun c => !p c) (fun _ => e) (g ++ cs) =
      e ++ fillRuns (fun c => !p c) (fun _ => e) cs := by
  obtain ⟨c, g, rfl⟩ := List.exists_cons_of_ne_nil hg.1
  obtain ⟨hc, hrest⟩ := List.forall_mem_cons.mp hg.2
  rw [fillRuns, List.cons_append, fillRunsFrom, hc, Bool.not_false, if_pos rfl]
  exact fillRunsFrom_gap_append (by simp) hrest hcs

/-- In a text that begins with a gap every run has the filling in front of it. -/
theorem fillRuns_of_head (hcs : ∀ c ∈ cs.head?, p c = false) :
    ∃ back, (back = [] ∨ back = e) ∧
      fillRuns (fun c => !p c) (fun _ => e) cs = (runs p cs).flatMap (e ++ ·) ++ back := by
  induction cs using runs_induction (p := p) with
  | gap g hg =>
    rw [runs_of_gap hg]
    by_cases hne : g = []
    · exact ⟨[], Or.inl rfl, by rw [hne]; rfl⟩
    · have hfill : fillRuns (fun c => !p c) (fun _ => e) (g ++ []) = e ++ [] :=
        fillRuns_gap_append ⟨hne, hg⟩ (by simp)
      rw [List.append_nil] at hfill
      exact ⟨e, Or.inr rfl, hfill.trans (List.append_nil e)⟩
  | run g w cs hg hw hends ih =>
    obtain ⟨c, w, rfl⟩ := List.exists_cons_of_ne_nil hw.1
    have hc : p c = true := hw.2 c List.mem_cons_self
    have hne : g ≠ [] := by
      rintro rfl
      rw [hcs c rfl] at hc
      contradiction
    obtain ⟨back, hback, hfill⟩ := ih hends
    refine ⟨back, hback, ?_⟩
    rw [List.append_assoc, fillRuns_gap_append ⟨hne, hg⟩ (by simpa using hc),
      fillRuns_run_append hw.2, hfill, runs_gap_append hg, runs_run_append hw hends,
      List.flatMap_cons]
    simp

/-- The runs joined by the filling, with the filling at an end where the text has a gap. -/
theorem fillRuns_eq_intercalate (p : Char → Bool) (e cs : List Char) :
    ∃ front back, (front = [] ∨ front = e) ∧ (back = [] ∨ back = e) ∧
      (runs p cs = [] → back = []) ∧
      fillRuns (fun c => !p c) (fun _ => e) cs = front ++ e.intercalate (runs p cs) ++ back := by
  have hwhole := List.takeWhile_append_dropWhile (p := p) (l := cs)
  have hw : ∀ c ∈ cs.takeWhile p, p c = true := fun c hc => List.mem_takeWhile_imp hc
  have hends := eq_false_of_mem_head?_dropWhile p cs
  obtain ⟨back, hback, hfill⟩ := fillRuns_of_head (e := e) hends
  by_cases hne : cs.takeWhile p = []
  · rw [hne, List.nil_append] at hwhole
    rw [hwhole] at hfill
    cases hruns : runs p cs with
    | nil =>
      rw [hruns, List.flatMap_nil, List.nil_append] at hfill
      exact ⟨back, [], hback, Or.inl rfl, fun _ => rfl, by rw [hfill]; simp⟩
    | cons w ws =>
      rw [hruns] at hfill
      refine ⟨e, back, Or.inr rfl, hback, nofun, ?_⟩
      rw [hfill, intercalate_eq_flatMap]
      simp
  · have hruns : runs p cs = cs.takeWhile p :: runs p (cs.dropWhile p) := by
      conv_lhs => rw [← hwhole]
      exact runs_run_append ⟨hne, hw⟩ hends
    refine ⟨[], back, Or.inl rfl, hback, fun hnil => (by simp [hruns] at hnil), ?_⟩
    conv_lhs => rw [← hwhole]
    rw [fillRuns_run_append hw, hfill, hruns, intercalate_eq_flatMap]
    simp

/-- Where the result has no character beyond the class, there was no gap to fill. -/
theorem forall_of_forall_fillRuns (he : IsGap p e)
    (h : ∀ c ∈ fillRuns (fun c => !p c) (fun _ => e) cs, p c = true) : ∀ c ∈ cs, p c = true := by
  have hgap : ∀ g tail, (∀ c ∈ g, p c = false) → (∀ c ∈ tail.head?, p c = true) →
      (∀ c ∈ fillRuns (fun c => !p c) (fun _ => e) (g ++ tail), p c = true) → g = [] := by
    intro g tail hg htail hall
    by_contra hne
    obtain ⟨d, hd⟩ := List.exists_mem_of_ne_nil e he.1
    have hfill := fillRuns_gap_append (e := e) ⟨hne, hg⟩ htail
    have hin := hall d (hfill ▸ List.mem_append_left _ hd)
    rw [he.2 d hd] at hin
    contradiction
  induction cs using runs_induction (p := p) with
  | gap g hg =>
    have hnil : g = [] := hgap g [] hg (by simp) (by rwa [List.append_nil])
    simp [hnil]
  | run g w cs hg hw hends ih =>
    rw [List.append_assoc] at h
    obtain ⟨c, tail, hcons⟩ := List.exists_cons_of_ne_nil hw.1
    have hnil : g = [] := by
      refine hgap g (w ++ cs) hg (fun d hd => ?_) h
      rw [hcons, List.cons_append, List.head?_cons, Option.mem_some_iff] at hd
      rw [← hd]
      exact hw.2 c (hcons ▸ List.mem_cons_self)
    rw [hnil, List.nil_append, fillRuns_run_append hw.2] at h
    rw [hnil, List.nil_append]
    exact List.forall_mem_append.mpr ⟨hw.2, ih (List.forall_mem_append.mp h).2⟩

end Placeholder.Text
