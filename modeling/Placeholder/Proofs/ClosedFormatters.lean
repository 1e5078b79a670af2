import Mathlib
import Placeholder.Proofs.EntryKeys
import Placeholder.Resolver.Function
import Placeholder.Token.Classify

/-!
# The closed list of formatters

Whatever a host registers, a registry holds formatters with names of the list, each name once. A
formatter with another name is refused, and one with a name of the list touches the entry of its own
name alone. So a template that calls anything else reaches neither a formatter nor the host.
-/

namespace Placeholder

theorem Formatter.isAllowed_iff {name : String} :
    Formatter.isAllowed name = true ↔ name ∈ Formatter.allowedNames :=
  List.contains_iff_mem

namespace Formatters

open Formatter (allowedNames)

variable {fs start : Formatters} {f : Formatter} {name : String}

/-- The registry after a call that registers; a call that is refused leaves it as it was. -/
def step (fs : Formatters) (f : Formatter) : Formatters :=
  match fs.register f with
  | .ok more => more
  | .error _ => fs

def after (start : Formatters) (history : List Formatter) : Formatters :=
  history.foldl step start

/-! ### One call -/

theorem unknown_of_not_mem (h : name ∉ allowedNames) :
    unknown name = ⟨name, "null", .notAllowed allowedNames⟩ := by
  rw [unknown, if_neg (mt Formatter.isAllowed_iff.mp h)]

theorem register_of_mem (fs : Formatters) (h : f.name ∈ allowedNames) :
    fs.register f = .ok (Entries.insert f.name f fs) := by
  rw [register, if_pos (Formatter.isAllowed_iff.mpr h)]

theorem register_of_not_mem (fs : Formatters) (h : f.name ∉ allowedNames) :
    fs.register f = .error ⟨f.name, "null", .notAllowed allowedNames⟩ := by
  rw [register, if_neg (mt Formatter.isAllowed_iff.mp h), unknown_of_not_mem h]

theorem step_of_mem (fs : Formatters) (h : f.name ∈ allowedNames) :
    fs.step f = Entries.insert f.name f fs := by
  rw [step, register_of_mem fs h]

theorem step_of_not_mem (fs : Formatters) (h : f.name ∉ allowedNames) : fs.step f = fs := by
  rw [step, register_of_not_mem fs h]

theorem find_of_get? (h : Entries.get? fs name = some f) : fs.find name = .ok f := by
  rw [find, h]

theorem find_of_not_mem_keys (h : name ∉ Entries.keys fs) : fs.find name = .error (unknown name) := by
  rw [find, Entries.get?_eq_none_iff.mpr h]

theorem find_insert_of_ne {other : String} (h : other ≠ name) (f : Formatter) (fs : Formatters) :
    find (Entries.insert name f fs) other = fs.find other := by
  rw [find, find, Entries.get?_insert_of_ne h]

theorem apply_of_find_eq_error {e : FormatterError} (h : fs.find name = .error e) (v : Value)
    (args : List Value) : fs.apply name v args = .error e := by
  rw [apply, h]
  rfl

theorem apply_congr {more : Formatters} (h : more.find name = fs.find name) (v : Value)
    (args : List Value) : more.apply name v args = fs.apply name v args := by
  rw [apply, apply, h]

/-! ### Histories -/

/-- The names are names of the list, and none stands twice. -/
structure Closed (fs : Formatters) : Prop where
  allowed : ∀ name ∈ Entries.keys fs, name ∈ allowedNames
  nodup : (Entries.keys fs).Nodup

theorem closed_nil : Closed [] :=
  ⟨List.forall_mem_nil _, List.nodup_nil⟩

/-- The built-in formatters are registered without a look at the list; their names are the list. -/
theorem keys_builtIn : Entries.keys builtIn = allowedNames := by
  rfl

theorem closed_builtIn : Closed builtIn :=
  ⟨fun _ hname => keys_builtIn ▸ hname, Entries.nodup_keys_ofList _⟩

theorem keys_step_of_mem (fs : Formatters) (h : f.name ∈ allowedNames) :
    Entries.keys (fs.step f) =
      if f.name ∈ Entries.keys fs then Entries.keys fs else Entries.keys fs ++ [f.name] := by
  rw [step_of_mem fs h]
  split_ifs with hkey
  · exact Entries.keys_insert_of_mem f hkey
  · exact Entries.keys_insert_of_not_mem f hkey

theorem Closed.step (h : Closed fs) (f : Formatter) : Closed (fs.step f) := by
  by_cases hf : f.name ∈ allowedNames
  · constructor
    · intro name hname
      rw [keys_step_of_mem fs hf] at hname
      split_ifs at hname with hkey
      · exact h.allowed name hname
      · rcases List.mem_append.mp hname with hold | hnew
        · exact h.allowed name hold
        · rwa [List.mem_singleton.mp hnew]
    · rw [step_of_mem fs hf]
      exact Entries.nodup_keys_insert f.name f h.nodup
  · rwa [step_of_not_mem fs hf]

theorem Closed.after (h : Closed start) (history : List Formatter) :
    Closed (start.after history) := by
  induction history generalizing start with
  | nil => exact h
  | cons f history ih => exact ih (h.step f)

/-! ### What a closed list keeps out -/

theorem Closed.apply_of_not_mem (h : Closed fs) (hname : name ∉ allowedNames) (v : Value)
    (args : List Value) :
    fs.apply name v args = .error ⟨name, "null", .notAllowed allowedNames⟩ := by
  have hfind := find_of_not_mem_keys fun hkey => hname (h.allowed name hkey)
  rw [apply_of_find_eq_error hfind, unknown_of_not_mem hname]

theorem resolve_uncallable {hosts : HostFunctions} {t : Token} {c : Context} {args : List Value}
    (hargs : t.arguments c = .ok args) (hhost : t.function.getD "" ∉ Entries.keys hosts)
    (hname : t.function.getD "" ∉ allowedNames) (fs : Formatters) :
    (Resolver.function hosts fs).resolve t c =
      .error (.security (.unregisteredFunction (t.function.getD ""))) := by
  have hnone : Entries.get? hosts (t.function.getD "") = none := Entries.get?_eq_none_iff.mpr hhost
  simp only [Resolver.function, Resolver.ofKinds, hargs, hnone, bind, Except.bind,
    if_neg (mt Formatter.isAllowed_iff.mp hname)]

/-- A registry that holds nothing beyond the list, whatever is registered next. -/
structure IsClosedList (fs : Formatters) : Prop where
  names : ∀ name ∈ Entries.keys fs, name ∈ allowedNames
  rejected : ∀ f : Formatter, f.name ∉ allowedNames →
    fs.register f = .error ⟨f.name, "null", .notAllowed allowedNames⟩ ∧ fs.step f = fs
  accepted : ∀ f : Formatter, f.name ∈ allowedNames → ∃ more, fs.register f = .ok more ∧
    fs.step f = more ∧ more.find f.name = .ok f ∧
    Entries.keys more =
      (if f.name ∈ Entries.keys fs then Entries.keys fs else Entries.keys fs ++ [f.name]) ∧
    ∀ other, other ≠ f.name → more.find other = fs.find other ∧
      ∀ v args, more.apply other v args = fs.apply other v args
  refused : ∀ name, name ∉ allowedNames → ∀ v args,
    fs.apply name v args = .error ⟨name, "null", .notAllowed allowedNames⟩
  uncallable : ∀ (hosts : HostFunctions) (t : Token) (c : Context) (args : List Value),
    t.kind = .function → t.arguments c = .ok args →
    t.function.getD "" ∉ Entries.keys hosts → t.function.getD "" ∉ allowedNames →
    (Resolver.function hosts fs).supports t c = true ∧
      (Resolver.function hosts fs).resolve t c =
        .error (.security (.unregisteredFunction (t.function.getD "")))

theorem Closed.isClosedList (h : Closed fs) : IsClosedList fs where
  names := h.allowed
  rejected := fun f hf => ⟨register_of_not_mem fs hf, step_of_not_mem fs hf⟩
  accepted := by
    intro f hf
    refine ⟨fs.step f, ?_, rfl, ?_, keys_step_of_mem fs hf, fun other hother => ?_⟩
    · rw [step_of_mem fs hf, register_of_mem fs hf]
    · rw [step_of_mem fs hf]
      exact find_of_get? (Entries.get?_insert_self f.name f fs)
    · have hfind : (fs.step f).find other = fs.find other := by
        rw [step_of_mem fs hf, find_insert_of_ne hother]
      exact ⟨hfind, apply_congr hfind⟩
  refused := fun name hname => h.apply_of_not_mem hname
  uncallable := by
    intro hosts t c args hkind hargs hhost hname
    refine ⟨?_, resolve_uncallable hargs hhost hname fs⟩
    simp [Resolver.function, Resolver.ofKinds, hkind]

/-- A registry stays a closed list through every history of registrations, from the empty one as
from the one with the built-in formatters. -/
theorem after_isClosedList (start : Formatters) (hstart : start = [] ∨ start = builtIn)
    (history : List Formatter) : IsClosedList (start.after history) := by
  have hclosed : Closed start := by
    rcases hstart with rfl | rfl
    · exact closed_nil
    · exact closed_builtIn
  exact (hclosed.after history).isClosedList

def shouting (name : String) : Formatter where
  name := name
  format := fun v _ => .ok (.string (v.templateText ++ "!"))

/-- A built-in name is taken over, and a name beyond the list is refused and cannot be called. -/
theorem after_shouting :
    (builtIn = [] ∨ builtIn = builtIn) ∧
      (builtIn.after [shouting "slug", shouting "exec"]).apply "slug" (.string "a b") [] =
        .ok (.string "a b!") ∧
      (builtIn.after [shouting "slug", shouting "exec"]).apply "exec" (.string "x") [] =
        .error ⟨"exec", "null", .notAllowed allowedNames⟩ ∧
      (Token.parse "exec('x')").kind = .function ∧
      (Token.parse "exec('x')").arguments .empty = .ok [.string "x"] ∧
      "exec" ∉ allowedNames ∧
      (Resolver.function [] (builtIn.after [shouting "slug", shouting "exec"])).resolve
        (Token.parse "exec('x')") .empty = .error (.security (.unregisteredFunction "exec")) := by
  have hclosed := after_isClosedList builtIn (Or.inr rfl) [shouting "slug", shouting "exec"]
  have hkind : (Token.parse "exec('x')").kind = .function := by decide +kernel
  have hfunction : (Token.parse "exec('x')").function.getD "" = "exec" := by decide +kernel
  have hargs : (Token.parse "exec('x')").arguments .empty = .ok [.string "x"] := by rfl
  have hname : "exec" ∉ allowedNames := by decide
  obtain ⟨-, hresolve⟩ := hclosed.uncallable [] _ _ _ hkind hargs (by simp [Entries.keys])
    (hfunction ▸ hname)
  rw [hfunction] at hresolve
  exact ⟨Or.inr rfl, by rfl, hclosed.refused "exec" hname _ _, hkind, hargs, hname, hresolve⟩

end Formatters

end Placeholder
