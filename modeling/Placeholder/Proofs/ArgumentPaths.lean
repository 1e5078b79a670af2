import Placeholder.Proofs.BracketedPaths
import Placeholder.Proofs.CallArguments
import Placeholder.Proofs.HiddenAttributes

/-!
# Paths as arguments

A call looks a path up as a whole before it leaves the head out, and a guarded model is asked about
both. The whole path is one segment longer than the field path, so an argument sees what the
placeholder sees, except where the field path is as deep as the guard lets a path be.
-/

namespace Placeholder

open Temporal (IsIdentifier)

/-! ### Texts of identifiers between dots -/

namespace Path

theorem pieces_eq_splitOn {cs : List Char} (h : '[' ∉ cs) : pieces 0 cs = Text.splitOn '.' cs := by
  induction cs with
  | nil => rfl
  | cons c cs ih =>
    obtain ⟨hc, hcs⟩ := not_or.mp (mt List.mem_cons.mpr h)
    rw [pieces]
    by_cases hdot : c = '.'
    · rw [if_pos ⟨hdot, rfl⟩, hdot, Text.splitOn_cons_self, ih hcs]
    · have hdepth : nextDepth 0 c = 0 := by simp [nextDepth, Ne.symm hc]
      obtain ⟨piece, others, hsplit⟩ := List.exists_cons_of_ne_nil
        (show Text.splitOn '.' cs ≠ [] from Text.splitBy_ne_nil _ cs)
      rw [if_neg fun hcut => hdot hcut.1, hdepth, ih hcs, hsplit,
        Text.splitOn_cons_of_ne hdot hsplit]
      rfl

theorem mem_prepend {c d : Char} {cuts : List (List Char)} :
    (∃ piece ∈ prepend c cuts, d ∈ piece) ↔ d = c ∨ ∃ piece ∈ cuts, d ∈ piece := by
  cases cuts with
  | nil => simp [prepend]
  | cons piece others => simp [prepend, or_assoc]

/-- Every character but the dots is kept in a piece. -/
theorem exists_mem_pieces {cs : List Char} {d : Char} (hd : d ∈ cs) (hdot : d ≠ '.') (depth : Nat) :
    ∃ piece ∈ pieces depth cs, d ∈ piece := by
  induction cs generalizing depth with
  | nil => cases hd
  | cons c cs ih =>
    rw [pieces]
    split_ifs with hcut
    · have hrest : d ∈ cs := (List.mem_cons.mp hd).resolve_left fun heq => hdot (heq.trans hcut.1)
      obtain ⟨piece, hpiece, hmem⟩ := ih hrest depth
      exact ⟨piece, List.mem_cons_of_mem _ hpiece, hmem⟩
    · rw [mem_prepend]
      exact (List.mem_cons.mp hd).imp_right fun hrest => ih hrest _

variable {cs : List Char}

/-- What stands between the dots of a text of identifiers is made of their characters and of white
space. -/
theorem mem_identifiers (h : ∀ segment ∈ segments cs, IsIdentifier segment) {d : Char}
    (hd : d ∈ cs) : d = '.' ∨ Text.isBlank d = true ∨ Text.isNamePart d = true := by
  by_cases hdot : d = '.'
  · exact Or.inl hdot
  · obtain ⟨piece, hpiece, hmem⟩ := exists_mem_pieces hd hdot 0
    have hname := (h _ (List.mem_map_of_mem hpiece)).isNamePart
    rw [String.toList_ofList] at hname
    obtain ⟨before, after, hbefore, hafter, hpadded⟩ := Text.exists_padding_trim piece
    rw [hpadded, List.mem_append, List.mem_append] at hmem
    rcases hmem with (hmem | hmem) | hmem
    · exact Or.inr (Or.inl (hbefore d hmem))
    · exact Or.inr (Or.inr (hname d hmem))
    · exact Or.inr (Or.inl (hafter d hmem))

theorem not_mem_identifiers (h : ∀ segment ∈ segments cs, IsIdentifier segment) {d : Char}
    (hd : d ≠ '.' ∧ Text.isBlank d = false ∧ Text.isNamePart d = false) : d ∉ cs := by
  intro hmem
  have hclass := mem_identifiers h hmem
  simp [hd] at hclass

/-- The first character of a trimmed text of identifiers starts the first of them. -/
theorem isNameStart_of_identifiers {c : Char} (hc : Text.isBlank c = false)
    (h : ∀ segment ∈ segments (c :: cs), IsIdentifier segment) : Text.isNameStart c = true := by
  have hdot : c ≠ '.' := by
    rintro rfl
    have hempty : IsIdentifier "" := h "" (by simp [segments, pieces, Text.trim, Text.trimBy,
      Text.trimStart, Text.trimEnd])
    obtain ⟨c, cs, hlist, -, -⟩ := hempty
    cases hlist
  obtain ⟨piece, others, hpieces⟩ : ∃ piece others, pieces 0 (c :: cs) = (c :: piece) :: others := by
    rw [pieces, if_neg fun hcut => hdot hcut.1]
    cases pieces (nextDepth 0 c) cs with
    | nil => exact ⟨[], [], rfl⟩
    | cons piece others => exact ⟨piece, others, rfl⟩
  obtain ⟨kept, hkept⟩ : ∃ kept, Text.trim (c :: piece) = c :: kept := by
    rw [Text.trim, Text.trimBy, Text.trimStart_cons_of_not_blank hc]
    obtain ⟨back, hback, hwhole⟩ := Text.exists_trimEnd Text.isBlank (c :: piece)
    cases htrim : Text.trimEnd Text.isBlank (c :: piece) with
    | nil =>
      rw [htrim, List.nil_append] at hwhole
      exact absurd (hback c (hwhole ▸ List.mem_cons_self)) (by simp [hc])
    | cons d kept =>
      rw [htrim, List.cons_append, List.cons.injEq] at hwhole
      exact ⟨kept, by rw [hwhole.1]⟩
  obtain ⟨d, ds, hlist, hd, -⟩ := h (String.ofList (c :: kept)) (by simp [segments, hpieces, hkept])
  rw [String.toList_ofList, List.cons.injEq] at hlist
  rw [hlist.1]
  exact hd

end Path

/-! ### Paths behind a head -/

namespace Token

/-- The text in front of the first dot: the head, and the white space behind it if there is any. -/
def writtenHead (t : Token) : String :=
  (Text.splitString '.' t.raw).headD ""

theorem splitString_raw (t : Token) :
    ∃ rest, Text.splitString '.' t.raw = t.writtenHead :: rest := by
  obtain ⟨head, rest, hsplit⟩ := List.exists_cons_of_ne_nil (Text.splitString_ne_nil '.' t.raw)
  exact ⟨rest, by rw [writtenHead, hsplit]; rfl⟩

/-- A name is no number. -/
theorem isNumeral_of_isNameStart {c : Char} {cs : List Char} (hc : Text.isNameStart c = true)
    (htrimmed : Text.Trimmed (c :: cs)) : Number.isNumeral (c :: cs) = false := by
  have hplain : c ≠ '+' ∧ c ≠ '-' ∧ c ≠ '.' := by
    refine ⟨?_, ?_, ?_⟩ <;> (rintro rfl; exact absurd hc (by decide))
  obtain ⟨hplus, hminus, hpoint⟩ := hplain
  have hdigit := Temporal.Lexeme.not_isDigit_of_isNameStart hc
  have hmark : Number.Numeral.isSignMark c = false := by
    simp [Number.Numeral.isSignMark, hplus, hminus]
  have hscan : Number.Numeral.scan? (c :: cs) = none :=
    Number.Numeral.scan?_cons_eq_none hmark (Arithmetic.not_numeric_iff.mpr ⟨hdigit, hpoint⟩)
  rw [Number.isNumeral, show Text.trim (c :: cs) = c :: cs from htrimmed, hscan]
  rfl

/-- A path of a model or of its relations that is made of identifiers. -/
structure IsFieldPath (t : Token) : Prop where
  kind : t.kind ∈ [.model, .relation]
  field : t.fieldPath ≠ []
  identifiers : ∀ segment ∈ t.path, IsIdentifier segment

namespace IsFieldPath

variable {p : String}

theorem parse_eq (h : (parse p).IsFieldPath) : parse p = ofPath (Text.trim p.toList) := by
  have hkinds : [TokenKind.model, .relation] ⊆ [.model, .relation, .table, .collection] := by decide
  exact parse_eq_ofPath (hkinds h.kind)

theorem toList_raw (h : (parse p).IsFieldPath) : (parse p).raw.toList = Text.trim p.toList := by
  rw [h.parse_eq]
  exact String.toList_ofList

theorem path_eq (h : (parse p).IsFieldPath) :
    (parse p).path = Path.segments (parse p).raw.toList := by
  rw [h.toList_raw, h.parse_eq]
  rfl

theorem identifiers_raw (h : (parse p).IsFieldPath) :
    ∀ segment ∈ Path.segments (parse p).raw.toList, IsIdentifier segment := by
  rw [← h.path_eq]
  exact h.identifiers

/-- The text is cut at the same dots when it is looked up as when it is classified. -/
theorem length_splitString_raw (h : (parse p).IsFieldPath) :
    (Text.splitString '.' (parse p).raw).length = (parse p).fieldPath.length + 1 := by
  have hbracket : '[' ∉ (parse p).raw.toList :=
    Path.not_mem_identifiers h.identifiers_raw (by decide)
  have hpath : (parse p).path.length = (parse p).fieldPath.length + 1 := by
    rw [path_eq_cons_fieldPath h.field, List.length_cons]
  rw [← hpath, h.path_eq, Text.splitString, Path.segments, Path.pieces_eq_splitOn hbracket,
    List.length_map, List.length_map]

theorem splitString_field (h : (parse p).IsFieldPath) :
    Text.splitString '.' (Text.join "." (parse p).fieldPath) = (parse p).fieldPath := by
  refine Text.splitString_join h.field fun segment hsegment => ?_
  exact (h.identifiers segment (List.mem_of_mem_drop hsegment)).not_mem (by decide)

theorem isReferenceText (h : (parse p).IsFieldPath) :
    WrittenArgument.IsReferenceText (parse p).raw.toList := by
  have hnot : ∀ {d : Char}, d ≠ '.' ∧ Text.isBlank d = false ∧ Text.isNamePart d = false →
      d ∉ (parse p).raw.toList := Path.not_mem_identifiers h.identifiers_raw
  have hdot : '.' ∈ (parse p).raw.toList := by
    by_contra hundotted
    have hlength := h.length_splitString_raw
    have hfield := List.length_pos_of_ne_nil h.field
    rw [Text.splitString_of_not_mem hundotted, List.length_singleton] at hlength
    omega
  have htrimmed : Text.Trimmed (parse p).raw.toList := by
    rw [h.toList_raw]
    exact Text.trimmed_trim _
  refine ⟨List.ne_nil_of_mem hdot, htrimmed, fun c hc => ?_, fun hmark => ?_, ?_, fun hword => ?_⟩
  · have hother : ∀ {d : Char}, d ≠ '.' ∧ Text.isBlank d = false ∧ Text.isNamePart d = false →
        c ≠ d := fun hd heq => hnot hd (heq ▸ hc)
    exact ⟨⟨hother (by decide), hother (by decide)⟩, hother (by decide), hother (by decide),
      hother (by decide)⟩
  · exact hnot (by decide) (hmark.subset (by decide : '?' ∈ "??".toList))
  · have hidentifiers := h.identifiers_raw
    cases hraw : (parse p).raw.toList with
    | nil => rfl
    | cons c rest =>
      rw [hraw] at hidentifiers htrimmed
      have hstart := Path.isNameStart_of_identifiers htrimmed.head_not_blank hidentifiers
      exact isNumeral_of_isNameStart hstart htrimmed
  · have hlower : '.' ∈ Text.lowerAscii (parse p).raw.toList := List.mem_map_of_mem hdot
    revert hword hlower
    generalize Text.lowerAscii (parse p).raw.toList = word
    simp only [List.mem_cons, List.not_mem_nil, or_false]
    rintro (rfl | rfl | rfl) <;> decide

end IsFieldPath

end Token

/-! ### What the guard says about both paths -/

theorem Policy.checkPath_eq_ok_iff {policy : Policy} {path head : String} {rest : List String}
    (hpath : Text.splitString '.' path = head :: rest) :
    policy.checkPath path = .ok () ↔
      policy.isDenied head = false ∧ rest.length + 1 ≤ policy.maxDepth := by
  simp only [checkPath, hpath, List.headD_cons, isTooDeep, List.length_cons]
  cases policy.isDenied head with
  | true => simp
  | false => simp

/-- A guard that refuses a path does so with a security error. -/
theorem Model.check_cases (m : Model) (policy : Policy) (path : String) :
    m.check policy path = .ok () ∨ ∃ e, m.check policy path = .error (.security e) := by
  rw [check]
  cases policy.checkSource m.className with
  | error e => exact Or.inr ⟨e, rfl⟩
  | ok _ =>
    cases policy.checkPath path with
    | error e => exact Or.inr ⟨e, rfl⟩
    | ok _ => exact Or.inl rfl

/-- What is used of a value behind one guard, and behind the same guard with another in front of it,
differs exactly when the other alone refuses. -/
theorem guardedTwice_iff {inner outer : Except Failure Unit} (w : Value)
    {use : Value → Except Failure Value}
    (hinner : inner = .ok () ∨ ∃ e, inner = .error (.security e))
    (houter : outer = .ok () ∨ ∃ e, outer = .error (.security e))
    (huse : ∀ v e, use v ≠ .error (.security e)) :
    ((∀ v, (inner >>= fun _ => .ok w) = .ok v →
        (outer >>= fun _ => inner >>= fun _ => .ok w) >>= use = use v) ∧
      ((∃ e, (outer >>= fun _ => inner >>= fun _ => .ok w) >>= use = .error (.security e)) ↔
        ∃ e, (inner >>= fun _ => .ok w) = .error (.security e))) ↔
      (inner = .ok () → outer = .ok ()) := by
  rcases hinner with rfl | ⟨e, rfl⟩ <;> rcases houter with rfl | ⟨e', rfl⟩
  · refine iff_of_true ⟨fun v hv => ?_, ?_⟩ fun _ => rfl
    · cases hv
      rfl
    · exact iff_of_false (fun ⟨e, he⟩ => huse w e he) fun ⟨e, he⟩ => nomatch he
  · refine iff_of_false (fun hsame => ?_) fun hcheck => nomatch hcheck rfl
    obtain ⟨e, he⟩ := hsame.2.mp ⟨e', rfl⟩
    cases he
  · exact iff_of_true ⟨fun v hv => (nomatch hv), iff_of_true ⟨e, rfl⟩ ⟨e, rfl⟩⟩
      fun hok => nomatch hok
  · exact iff_of_true ⟨fun v hv => (nomatch hv), iff_of_true ⟨e', rfl⟩ ⟨e, rfl⟩⟩
      fun hok => nomatch hok

/-- The model behind a context has nothing that a path could mean but its fields: the text of the
path is no variable, and what stands in front of its first dot is no name of the model and not
hidden. -/
structure Context.PassesOver (c : Context) (m : Model) (policy : Policy) (t : Token) : Prop where
  source : c.source = m.source policy
  unexpecting : c.expectedHead = none
  variable_free : c.bindings.get? t.raw = none
  attribute_free : m.attributes.get? t.writtenHead = none
  relation_free : m.relations.get? t.writtenHead = none
  visible : policy.isDenied t.writtenHead = false

namespace Token.IsFieldPath

variable {p : String} {c : Context} {m : Model} {policy : Policy}

theorem check_field_iff (h : (parse p).IsFieldPath) (m : Model) (policy : Policy) :
    m.check policy (Text.join "." (parse p).fieldPath) = .ok () ↔
      policy.admits m.className = true ∧
        policy.isDenied ((parse p).fieldPath.headD "") = false ∧
        (parse p).fieldPath.length ≤ policy.maxDepth := by
  obtain ⟨head, rest, hfield⟩ := List.exists_cons_of_ne_nil h.field
  have hsplit := h.splitString_field
  rw [Model.check_eq_ok_iff, Policy.checkPath_eq_ok_iff (hsplit.trans hfield), hfield,
    List.headD_cons, List.length_cons]

theorem check_raw_iff (h : (parse p).IsFieldPath) (hover : c.PassesOver m policy (parse p)) :
    m.check policy (parse p).raw = .ok () ↔
      policy.admits m.className = true ∧ (parse p).fieldPath.length + 1 ≤ policy.maxDepth := by
  obtain ⟨rest, hsplit⟩ := (parse p).splitString_raw
  have hlength := h.length_splitString_raw
  rw [hsplit, List.length_cons] at hlength
  rw [Model.check_eq_ok_iff, Policy.checkPath_eq_ok_iff hsplit, hlength]
  simp [hover.visible]

/-- The whole path leads nowhere, so the look-up goes on with the field path, once the guard has
been asked about the whole path. -/
theorem reference_raw (h : (parse p).IsFieldPath) (hover : c.PassesOver m policy (parse p)) :
    c.reference (parse p).raw =
      m.check policy (parse p).raw >>= fun _ => c.follow (parse p).fieldPath := by
  obtain ⟨rest, hsplit⟩ := (parse p).splitString_raw
  have hlookup : (Value.host m.toHost).lookupDotted (parse p).raw = .null := by
    rw [Value.lookupDotted, hsplit, Value.lookupPath_cons, Value.lookup, Model.find?_toHost,
      hover.attribute_free, hover.relation_free]
    exact Value.lookupPath_null rest
  have hget : c.get (parse p).raw = m.check policy (parse p).raw >>= fun _ => .ok .null := by
    rw [Context.get, hover.variable_free, hover.source]
    dsimp only [Model.source]
    rw [hlookup]
  have hsegments : Path.segments (parse p).raw.toList = (parse p).head :: (parse p).fieldPath :=
    h.path_eq.symm.trans (path_eq_cons_fieldPath h.field)
  have hdollar : ∀ name, (parse p).raw.toList ≠ '$' :: name := by
    intro name heq
    have hnot : '$' ∉ (parse p).raw.toList := Path.not_mem_identifiers h.identifiers_raw (by decide)
    exact hnot (heq ▸ List.mem_cons_self)
  rw [Context.reference]
  split
  · exact absurd ‹_› (hdollar _)
  · obtain ⟨segment, others, hfield⟩ := List.exists_cons_of_ne_nil h.field
    rw [hget, hsegments, hfield]
    cases m.check policy (parse p).raw with
    | error e => rfl
    | ok _ => rfl

end Token.IsFieldPath

/-! ### Calls with a path -/

namespace Token

variable {name p : String}

theorem parse_callText_path (hname : IsIdentifier name) (hnow : ¬ "NOW".toList <+: name.toList)
    (htoday : ¬ "TODAY".toList <+: name.toList) (h : (parse p).IsFieldPath) :
    parse (callText name p.toList) =
      { raw := callText name p.toList
        kind := .function
        path := []
        function := some name
        args := [.string (parse p).raw]
        metadata := [("reference_args", "0")] } := by
  obtain ⟨before, after, hbefore, hafter, hpadded⟩ := Text.exists_padding_trim p.toList
  have hwritten : p.toList = before ++ (WrittenArgument.reference (parse p).raw).text ++ after := by
    rw [WrittenArgument.text, h.toList_raw]
    exact hpadded
  have hargs : ∀ a ∈ [WrittenArgument.reference (parse p).raw], a.WellFormed :=
    List.forall_mem_singleton.mpr h.isReferenceText
  have hparse := parse_callText_listed hname hnow htoday hargs hbefore (.last _) hafter
  rw [← hwritten] at hparse
  exact hparse

theorem arguments_call {t : Token} {text : String} (hargs : t.args = [.string text])
    (hpositions : t.meta? "reference_args" = some "0") (c : Context) :
    t.arguments c = (c.reference text).map fun v => [v] := by
  have hzero : t.referencePositions = [0] := by
    rw [referencePositions, hpositions]
    decide
  rw [arguments, hzero, hargs]
  simp only [List.foldlM_cons, List.foldlM_nil, lookUpArgument, List.getElem?_cons_zero,
    List.set_cons_zero]
  cases c.reference text with
  | error e => rfl
  | ok v => rfl

end Token

/-- A function of the host that can be called by its name. -/
structure HostFunctions.Callable (functions : HostFunctions) (name : String) (f : HostFunction) :
    Prop where
  identifier : IsIdentifier name
  not_now : ¬ "NOW".toList <+: name.toList
  not_today : ¬ "TODAY".toList <+: name.toList
  registered : functions.get? name = some f

namespace Pipeline

open Token (callText)

/-- A call with the path for its argument gives what the function makes of the value of the path,
and the guard refuses the call exactly when it refuses the path. -/
def SeesSame (pl : Pipeline) (name p : String) (f : HostFunction) (c : Context) : Prop :=
  (∀ v, pl.resolve (.parse p) c = .ok v →
    pl.resolve (.parse (callText name p.toList)) c =
      (f [v]).mapError fun reason =>
        .resolution (.forToken (callText name p.toList) reason)) ∧
  ((∃ e, pl.resolve (.parse (callText name p.toList)) c = .error (.security e)) ↔
    ∃ e, pl.resolve (.parse p) c = .error (.security e))

variable {k : Clock} {functions : HostFunctions} {formatters : Formatters} {name p : String}
  {f : HostFunction} {c : Context} {m : Model} {policy : Policy}

theorem resolve_fieldPath (h : (Token.parse p).IsFieldPath) (hhead : c.expectedHead = none) :
    (standard k functions formatters).resolve (.parse p) c =
      c.follow (Token.parse p).fieldPath := by
  have hexpects : c.expects (Token.parse p) = true := by rw [Context.expects, hhead]
  have hkind := h.kind
  simp only [List.mem_cons, List.not_mem_nil, or_false] at hkind
  rcases hkind with hmodel | hrelation
  · rw [resolve_standard (r := Resolver.model) (by simp [standardResolvers, Resolver.defaults])
      (by simp [Resolver.model, Resolver.ofKinds, hmodel])]
    simp [Resolver.model, Resolver.ofKinds, hexpects, h.field]
  · have hlength : ¬ (Token.parse p).fieldPath.length ≤ 1 :=
      not_le.mpr (Token.length_fieldPath_of_relation hrelation)
    rw [resolve_standard (r := Resolver.relation) (by simp [standardResolvers, Resolver.defaults])
      (by simp [Resolver.relation, Resolver.ofKinds, hrelation])]
    simp [Resolver.relation, Resolver.ofKinds, hexpects, hlength]

theorem resolve_call (hf : functions.Callable name f) (h : (Token.parse p).IsFieldPath) :
    (standard k functions formatters).resolve (.parse (callText name p.toList)) c =
      c.reference (Token.parse p).raw >>= fun v =>
        (f [v]).mapError fun reason =>
          .resolution (.forToken (callText name p.toList) reason) := by
  have hparse := Token.parse_callText_path hf.identifier hf.not_now hf.not_today h
  rw [resolve_standard (r := Resolver.function functions formatters)
    (by simp [standardResolvers]) (by simp [Resolver.function, Resolver.ofKinds, hparse])]
  have hargs := Token.arguments_call (t := Token.parse (callText name p.toList))
    (by rw [hparse]) (by rw [hparse]; rfl) c
  have hfound : functions.get? ((Token.parse (callText name p.toList)).function.getD "") = some f := by
    rw [hparse]
    exact hf.registered
  have hraw : (Token.parse (callText name p.toList)).raw = callText name p.toList := by rw [hparse]
  simp only [Resolver.function, Resolver.ofKinds, hargs, hfound, hraw]
  cases c.reference (Token.parse p).raw with
  | error e => rfl
  | ok v => rfl

/-- Only the check of the whole path can set the call and the path apart. -/
theorem seesSame_iff_check (hf : functions.Callable name f) (h : (Token.parse p).IsFieldPath)
    (hover : c.PassesOver m policy (Token.parse p)) :
    (standard k functions formatters).SeesSame name p f c ↔
      (m.check policy (Text.join "." (Token.parse p).fieldPath) = .ok () →
        m.check policy (Token.parse p).raw = .ok ()) := by
  have hpath : (standard k functions formatters).resolve (.parse p) c =
      c.follow (Token.parse p).fieldPath := resolve_fieldPath h hover.unexpecting
  have hfollow : c.follow (Token.parse p).fieldPath =
      m.check policy (Text.join "." (Token.parse p).fieldPath) >>= fun _ =>
        .ok ((Value.host m.toHost).lookupDotted (Text.join "." (Token.parse p).fieldPath)) := by
    rw [Context.follow, hover.source]
    rfl
  have hreason : ∀ (v : Value) (e : SecurityError), ((f [v]).mapError fun reason =>
      Failure.resolution (.forToken (callText name p.toList) reason)) ≠ .error (.security e) := by
    intro v e
    cases f [v] <;> simp [Except.mapError, Failure.security]
  unfold SeesSame
  rw [hpath, resolve_call hf h, h.reference_raw hover, hfollow]
  exact guardedTwice_iff _ (m.check_cases policy _) (m.check_cases policy _) hreason

/-- A call sees of a path what the placeholder sees, except where the guard admits the field path
and nothing below it: the whole path, which is looked up first, is one segment longer. -/
theorem seesSame_iff (k : Clock) (formatters : Formatters) (hf : functions.Callable name f)
    (h : (Token.parse p).IsFieldPath) (hover : c.PassesOver m policy (Token.parse p)) :
    (standard k functions formatters).SeesSame name p f c ↔
      ¬ (policy.admits m.className = true ∧
        policy.isDenied ((Token.parse p).fieldPath.headD "") = false ∧
        (Token.parse p).fieldPath.length = policy.maxDepth) := by
  rw [seesSame_iff_check hf h hover, h.check_field_iff, h.check_raw_iff hover]
  constructor
  · rintro hcheck ⟨hadmits, hshown, hdepth⟩
    have hshorter := (hcheck ⟨hadmits, hshown, hdepth.le⟩).2
    omega
  · rintro hapart ⟨hadmits, hshown, hdepth⟩
    refine ⟨hadmits, Nat.lt_of_le_of_ne hdepth fun heq => hapart ⟨hadmits, hshown, heq⟩⟩

def firstOf : HostFunction :=
  fun args => .ok (args.headD .null)

def ann : Model where
  identity := 0
  className := "User"
  attributes := [("name", .string "Ann")]
  relations := []

theorem callable_first : HostFunctions.Callable [("first", firstOf)] "first" firstOf where
  identifier := ⟨'f', "irst".toList, rfl, by decide, by simp [Text.isNamePart]⟩
  not_now := by decide
  not_today := by decide
  registered := rfl

theorem isFieldPath_userName : (Token.parse "User.name").IsFieldPath where
  kind := by decide
  field := by decide
  identifiers := by
    have hpath : (Token.parse "User.name").path = ["User", "name"] := by decide
    have huser : IsIdentifier "User" :=
      ⟨'U', "ser".toList, rfl, by decide, by simp [Text.isNamePart]⟩
    have hname : IsIdentifier "name" :=
      ⟨'n', "ame".toList, rfl, by decide, by simp [Text.isNamePart]⟩
    rw [hpath]
    exact List.forall_mem_cons.mpr ⟨huser, List.forall_mem_singleton.mpr hname⟩

theorem passesOver_ann (policy : Policy) (hvisible : policy.isDenied "User" = false) :
    (Context.empty.onModel ann policy).PassesOver ann policy (Token.parse "User.name") where
  source := rfl
  unexpecting := rfl
  variable_free := rfl
  attribute_free := by decide
  relation_free := rfl
  visible := hvisible

theorem seesSame_userName :
    (Context.empty.onModel ann .recommended).PassesOver ann .recommended
        (Token.parse "User.name") ∧
      (standard wednesday [("first", firstOf)] []).SeesSame "first" "User.name" firstOf
        (Context.empty.onModel ann .recommended) := by
  have hover := passesOver_ann .recommended (by decide)
  refine ⟨hover, (seesSame_iff wednesday [] callable_first isFieldPath_userName hover).mpr ?_⟩
  decide

def shallow : Policy :=
  { maxDepth := 1 }

/-- One segment is as deep as the guard allows: the placeholder has it, and the call asks for two. -/
theorem not_seesSame_shallow :
    (standard wednesday [("first", firstOf)] []).resolve (.parse "User.name")
        (Context.empty.onModel ann shallow) = .ok (.string "Ann") ∧
      (standard wednesday [("first", firstOf)] []).resolve (.parse "first(User.name)")
        (Context.empty.onModel ann shallow) = .error (.security (.depthExceeded "User.name" 1)) ∧
      ¬ (standard wednesday [("first", firstOf)] []).SeesSame "first" "User.name" firstOf
        (Context.empty.onModel ann shallow) := by
  have hover := passesOver_ann shallow (by decide)
  have hpath : (standard wednesday [("first", firstOf)] []).resolve (.parse "User.name")
      (Context.empty.onModel ann shallow) = .ok (.string "Ann") := by
    rw [resolve_fieldPath isFieldPath_userName hover.unexpecting]
    rfl
  have htext : callText "first" "User.name".toList = "first(User.name)" := by decide
  have hcall : (standard wednesday [("first", firstOf)] []).resolve (.parse "first(User.name)")
      (Context.empty.onModel ann shallow) = .error (.security (.depthExceeded "User.name" 1)) := by
    rw [← htext, resolve_call callable_first isFieldPath_userName,
      isFieldPath_userName.reference_raw hover]
    rfl
  refine ⟨hpath, hcall, fun hsame => ?_⟩
  have hvalue := hsame.1 _ hpath
  rw [htext, hcall] at hvalue
  cases hvalue

end Pipeline

end Placeholder
