import Mathlib.Data.List.Pairwise
import Mathlib.Data.List.Perm.Basic
import QuotientScoring.Lib.GoPath

/-! A request router.

A pattern is a method, or none, and a path: segments that are given, segments that may be
anything but empty, and at the end either nothing or everything below. Of the patterns that
match a request the most specific is taken, which is one that all the others contain
(`within_sound`). In a table whose patterns are apart or one within the other there is
always such a one (`exists_dispatch`), in whatever order they were added
(`dispatch_perm`). -/
namespace Mux
open GoText GoPath

abbrev Text := List UInt8

inductive Segment where
  | lit (text : Text)
  | wild
deriving DecidableEq

/-- A pattern; with `subtree`, whatever is below the segments. -/
structure Pattern where
  method : Option Text
  segments : List Segment
  subtree : Bool
deriving DecidableEq

/-- A request with its path taken apart, the last segment empty after a slash. -/
structure Target where
  method : Text
  path : List Text
deriving DecidableEq

/-! ### Patterns as they are written -/

/-- A segment in braces is a wildcard, unless there is a dollar sign between them. -/
def parseSegment (text : Text) : Segment :=
  if text = str "\x7b$\x7d" then .lit []
  else if str "\x7b" <+: text ∧ str "\x7d" <:+ text then .wild
  else .lit text

/-- A path with a slash at its end is that of a subtree. -/
def parsePath (method : Option Text) (path : Text) : Pattern :=
  let segments := (path.drop 1).splitOn slash
  if segments.getLast? = some [] then ⟨method, segments.dropLast.map parseSegment, true⟩
  else ⟨method, segments.map parseSegment, false⟩

/-- The method, a blank and the path, or the path alone. -/
def parse (text : Text) : Pattern :=
  match text.splitOn 32 with
  | [method, path] => parsePath (some method) path
  | _ => parsePath none text

example : parse (str "GET /injects/{id}/{file}") =
    ⟨some (str "GET"), [.lit (str "injects"), .wild, .wild], false⟩ := by decide +kernel

example : parse (str "/static/assets/") =
    ⟨none, [.lit (str "static"), .lit (str "assets")], true⟩ := by decide +kernel

/-! ### Matching -/

/-- A pattern for `GET` is one for `HEAD` as well. -/
def matchMethod : Option Text → Text → Bool
  | none, _ => true
  | some method, m => m = method || (method = str "GET" && m = str "HEAD")

/-- What the wildcards stand for. -/
def matchPath (subtree : Bool) : List Segment → List Text → Option (List Text)
  | [], path => if subtree = path.isEmpty then none else some []
  | _ :: _, [] => none
  | .lit text :: segments, t :: path => if t = text then matchPath subtree segments path else none
  | .wild :: segments, t :: path =>
    if t = [] then none else (matchPath subtree segments path).map (t :: ·)

def Pattern.match? (pattern : Pattern) (target : Target) : Option (List Text) :=
  if matchMethod pattern.method target.method then
    matchPath pattern.subtree pattern.segments target.path
  else none

def Pattern.Matches (pattern : Pattern) (target : Target) : Prop :=
  (pattern.match? target).isSome

instance (pattern : Pattern) (target : Target) : Decidable (pattern.Matches target) :=
  inferInstanceAs (Decidable (_ = true))

/-! ### Which pattern is the more specific -/

def methodWithin : Option Text → Option Text → Bool
  | _, none => true
  | none, some _ => false
  | some a, some b => a = b || (b = str "GET" && a = str "HEAD")

def Segment.within : Segment → Segment → Bool
  | .lit a, .lit b => a = b
  | .lit a, .wild => a ≠ []
  | .wild, .lit _ => false
  | .wild, .wild => true

def pathWithin (subtree subtree' : Bool) : List Segment → List Segment → Bool
  | [], [] => subtree = subtree'
  | [], _ :: _ => false
  | _ :: _, [] => subtree'
  | a :: as, b :: bs => a.within b && pathWithin subtree subtree' as bs

def Pattern.within (p q : Pattern) : Bool :=
  methodWithin p.method q.method && pathWithin p.subtree q.subtree p.segments q.segments

def methodApart : Option Text → Option Text → Bool
  | some a, some b => !(methodWithin (some a) (some b)) && !(methodWithin (some b) (some a))
  | _, _ => false

def Segment.apart : Segment → Segment → Bool
  | .lit a, .lit b => a ≠ b
  | .lit a, .wild => a = []
  | .wild, .lit b => b = []
  | .wild, .wild => false

def pathApart (subtree subtree' : Bool) : List Segment → List Segment → Bool
  | [], [] => subtree ≠ subtree'
  | [], _ :: _ => !subtree
  | _ :: _, [] => !subtree'
  | a :: as, b :: bs => a.apart b || pathApart subtree subtree' as bs

def Pattern.apart (p q : Pattern) : Bool :=
  methodApart p.method q.method || pathApart p.subtree q.subtree p.segments q.segments

/-- Neither conflicts with the other. -/
def Pattern.orderly (p q : Pattern) : Bool := p.within q || q.within p || p.apart q

theorem matchMethod_of_within {a b : Option Text} {m : Text} (h : methodWithin a b = true)
    (hm : matchMethod a m = true) : matchMethod b m = true := by
  cases b with
  | none => rfl
  | some b =>
    cases a with
    | none => cases h
    | some a =>
      simp only [methodWithin, matchMethod, Bool.or_eq_true, Bool.and_eq_true, decide_eq_true_eq]
        at h hm ⊢
      rcases h with rfl | ⟨rfl, rfl⟩
      · exact hm
      · rcases hm with rfl | ⟨hget, -⟩
        · exact .inr ⟨rfl, rfl⟩
        · exact absurd (str_inj.mp hget) (by decide)

theorem matchPath_cons_isSome {subtree : Bool} {a : Segment} {segments : List Segment} {t : Text}
    {path : List Text} : (matchPath subtree (a :: segments) (t :: path)).isSome ↔
      (match a with | .lit text => t = text | .wild => t ≠ []) ∧
        (matchPath subtree segments path).isSome := by
  cases a with
  | lit text =>
    show (if t = text then matchPath subtree segments path else none).isSome ↔ _
    split <;> simp [*]
  | wild =>
    show (if t = [] then none else (matchPath subtree segments path).map (t :: ·)).isSome ↔ _
    split <;> simp [*]

theorem matchPath_of_within {subtree subtree' : Bool} {as bs : List Segment} {path : List Text}
    (h : pathWithin subtree subtree' as bs = true) (hm : (matchPath subtree as path).isSome) :
    (matchPath subtree' bs path).isSome := by
  induction as generalizing bs path with
  | nil =>
    cases bs with
    | nil =>
      obtain rfl : subtree = subtree' := by simpa [pathWithin] using h
      exact hm
    | cons b bs => cases h
  | cons a as ih =>
    cases path with
    | nil => cases hm
    | cons t path =>
      cases bs with
      | nil =>
        obtain rfl : subtree' = true := h
        rfl
      | cons b bs =>
        rw [pathWithin, Bool.and_eq_true] at h
        rw [matchPath_cons_isSome] at hm ⊢
        refine ⟨?_, ih h.2 hm.2⟩
        obtain ⟨hseg, -⟩ := h
        obtain ⟨ht, -⟩ := hm
        cases a <;> cases b <;> simp_all [Segment.within]

/-- A pattern matches what the patterns within it match. -/
theorem within_sound {p q : Pattern} {target : Target} (h : p.within q = true)
    (hm : p.Matches target) : q.Matches target := by
  obtain ⟨hmethod, hpath⟩ := Bool.and_eq_true_iff.mp h
  unfold Pattern.Matches Pattern.match? at hm ⊢
  by_cases hp : matchMethod p.method target.method = true
  · rw [if_pos hp] at hm
    rw [if_pos (matchMethod_of_within hmethod hp)]
    exact matchPath_of_within hpath hm
  · rw [if_neg hp] at hm
    cases hm

theorem not_matchMethod_of_apart {a b : Option Text} {m : Text} (h : methodApart a b = true)
    (ha : matchMethod a m = true) : matchMethod b m = false := by
  cases a with
  | none => cases b <;> cases h
  | some a =>
    cases b with
    | none => cases h
    | some b =>
      have hne : str "HEAD" ≠ str "GET" := fun heq => absurd (str_inj.mp heq) (by decide)
      simp only [methodApart, methodWithin, matchMethod] at h ha ⊢
      grind

theorem not_matchPath_of_apart {subtree subtree' : Bool} {as bs : List Segment}
    {path : List Text} (h : pathApart subtree subtree' as bs = true)
    (ha : (matchPath subtree as path).isSome) : matchPath subtree' bs path = none := by
  induction as generalizing bs path with
  | nil =>
    cases bs with
    | nil =>
      have hne : subtree ≠ subtree' := by simpa [pathApart] using h
      have hrest : subtree ≠ path.isEmpty := by
        intro heq
        rw [matchPath, if_pos heq] at ha
        cases ha
      have hother : ∀ a b c : Bool, a ≠ b → a ≠ c → b = c := by decide
      rw [matchPath, if_pos (hother _ _ _ hne hrest)]
    | cons b bs =>
      obtain rfl : subtree = false := by simpa [pathApart] using h
      cases path with
      | nil => rfl
      | cons t path => cases ha
  | cons a as ih =>
    cases path with
    | nil => cases ha
    | cons t path =>
      cases bs with
      | nil =>
        obtain rfl : subtree' = false := by simpa [pathApart] using h
        rfl
      | cons b bs =>
        rw [matchPath_cons_isSome] at ha
        rw [pathApart, Bool.or_eq_true] at h
        rw [← Option.not_isSome_iff_eq_none, matchPath_cons_isSome]
        intro hb
        rcases h with h | h
        · obtain ⟨hta, -⟩ := ha
          obtain ⟨htb, -⟩ := hb
          cases a <;> cases b <;> simp_all [Segment.apart]
        · rw [ih h ha.2] at hb
          cases hb.2

/-- No request is matched by two patterns that are apart. -/
theorem apart_sound {p q : Pattern} {target : Target} (h : p.apart q = true)
    (hp : p.Matches target) : ¬ q.Matches target := by
  unfold Pattern.Matches Pattern.match? at hp ⊢
  by_cases hm : matchMethod p.method target.method = true
  · rw [if_pos hm] at hp
    rcases Bool.or_eq_true_iff.mp h with h | h
    · rw [not_matchMethod_of_apart h hm]
      simp
    · rw [not_matchPath_of_apart h hp]
      simp
  · rw [if_neg hm] at hp
    cases hp

theorem pathWithin_antisymm {subtree subtree' : Bool} {as bs : List Segment}
    (h : pathWithin subtree subtree' as bs = true) (h' : pathWithin subtree' subtree bs as = true) :
    as = bs ∧ subtree = subtree' := by
  induction as generalizing bs with
  | nil =>
    cases bs with
    | nil => exact ⟨rfl, by simpa [pathWithin] using h⟩
    | cons b bs => cases h
  | cons a as ih =>
    cases bs with
    | nil => cases h'
    | cons b bs =>
      rw [pathWithin, Bool.and_eq_true] at h h'
      obtain ⟨rfl, hsub⟩ := ih h.2 h'.2
      have hab : a = b := by
        have hfst := h.1
        have hsnd := h'.1
        cases a <;> cases b <;> simp_all [Segment.within]
      exact ⟨by rw [hab], hsub⟩

theorem within_antisymm {p q : Pattern} (h : p.within q = true) (h' : q.within p = true) :
    p = q := by
  obtain ⟨hmethod, hpath⟩ := Bool.and_eq_true_iff.mp h
  obtain ⟨hmethod', hpath'⟩ := Bool.and_eq_true_iff.mp h'
  obtain ⟨hsegments, hsubtree⟩ := pathWithin_antisymm hpath hpath'
  obtain ⟨method, segments, subtree⟩ := p
  obtain ⟨method', segments', subtree'⟩ := q
  have heq : method = method' := by
    have hne : str "HEAD" ≠ str "GET" := fun heq => absurd (str_inj.mp heq) (by decide)
    cases method <;> cases method' <;> simp only [methodWithin] at hmethod hmethod' <;> grind
  subst heq
  subst hsegments
  subst hsubtree
  rfl

theorem methodWithin_trans {a b c : Option Text} (h : methodWithin a b = true)
    (h' : methodWithin b c = true) : methodWithin a c = true := by
  cases c with
  | none => rfl
  | some c =>
    have hne : str "HEAD" ≠ str "GET" := fun heq => absurd (str_inj.mp heq) (by decide)
    cases b <;> cases a <;> simp only [methodWithin] at h h' ⊢ <;> grind

theorem pathWithin_trans {s₁ s₂ s₃ : Bool} {as bs cs : List Segment}
    (h : pathWithin s₁ s₂ as bs = true) (h' : pathWithin s₂ s₃ bs cs = true) :
    pathWithin s₁ s₃ as cs = true := by
  induction as generalizing bs cs with
  | nil =>
    cases bs with
    | nil =>
      obtain rfl : s₁ = s₂ := by simpa [pathWithin] using h
      exact h'
    | cons b bs => cases h
  | cons a as ih =>
    cases bs with
    | nil =>
      cases cs with
      | nil =>
        obtain rfl : s₂ = true := h
        exact (by simpa [pathWithin] using h' : true = s₃).symm
      | cons c cs => cases h'
    | cons b bs =>
      cases cs with
      | nil => exact h'
      | cons c cs =>
        rw [pathWithin, Bool.and_eq_true] at h h' ⊢
        refine ⟨?_, ih h.2 h'.2⟩
        have hfst := h.1
        have hsnd := h'.1
        cases a <;> cases b <;> cases c <;> simp_all [Segment.within]

theorem within_trans {p q r : Pattern} (h : p.within q = true) (h' : q.within r = true) :
    p.within r = true := by
  obtain ⟨hmethod, hpath⟩ := Bool.and_eq_true_iff.mp h
  obtain ⟨hmethod', hpath'⟩ := Bool.and_eq_true_iff.mp h'
  exact Bool.and_eq_true_iff.mpr
    ⟨methodWithin_trans hmethod hmethod', pathWithin_trans hpath hpath'⟩

theorem within_refl (p : Pattern) : p.within p = true := by
  have hpath : ∀ segments, pathWithin p.subtree p.subtree segments segments = true := by
    intro segments
    induction segments with
    | nil => simp [pathWithin]
    | cons a as ih => cases a <;> simp [pathWithin, Segment.within, ih]
  have hmethod : methodWithin p.method p.method = true := by
    cases p.method <;> simp [methodWithin]
  exact Bool.and_eq_true_iff.mpr ⟨hmethod, hpath p.segments⟩

/-! ### A table of routes -/

variable {η : Type} {table table' : List (Pattern × η)} {target : Target} {route : Pattern × η}

def matching (table : List (Pattern × η)) (target : Target) : List (Pattern × η) :=
  table.filter (fun route => route.1.Matches target)

/-- The most specific of the routes that match. -/
def dispatch (table : List (Pattern × η)) (target : Target) : Option (Pattern × η) :=
  (matching table target).find? (fun route =>
    (matching table target).all (fun other => route.1.within other.1))

/-- No pattern is there twice, and no two conflict. -/
def Orderly (table : List (Pattern × η)) : Prop :=
  table.Pairwise (fun a b => a.1 ≠ b.1 ∧ a.1.orderly b.1 = true)

instance (table : List (Pattern × η)) : Decidable (Orderly table) :=
  inferInstanceAs (Decidable (List.Pairwise _ _))

theorem pathApart_comm (subtree subtree' : Bool) (as bs : List Segment) :
    pathApart subtree subtree' as bs = pathApart subtree' subtree bs as := by
  induction as generalizing bs with
  | nil =>
    cases bs with
    | nil => simp [pathApart, eq_comm]
    | cons b bs => rfl
  | cons a as ih =>
    cases bs with
    | nil => rfl
    | cons b bs =>
      rw [pathApart, pathApart, ih]
      congr 1
      cases a <;> cases b <;> simp [Segment.apart, eq_comm]

theorem orderly_comm (p q : Pattern) : p.orderly q = q.orderly p := by
  have hmethod : methodApart p.method q.method = methodApart q.method p.method := by
    cases p.method <;> cases q.method <;> simp [methodApart, Bool.and_comm]
  rw [Pattern.orderly, Pattern.orderly, Pattern.apart, Pattern.apart, hmethod, pathApart_comm,
    Bool.or_comm (p.within q)]

/-- The order of a table makes no difference. -/
theorem Orderly.perm (h : Orderly table) (hperm : table.Perm table') : Orderly table' := by
  refine (hperm.pairwise_iff fun hab => ?_).mp h
  exact ⟨hab.1.symm, orderly_comm _ _ ▸ hab.2⟩

theorem mem_matching : route ∈ matching table target ↔ route ∈ table ∧ route.1.Matches target := by
  simp [matching]

/-- The routes of a table are apart, or the requests of one are among those of the other. -/
theorem Orderly.chain (h : Orderly table) {a b : Pattern × η} (ha : a ∈ table) (hb : b ∈ table) :
    (∀ target, a.1.Matches target → ¬ b.1.Matches target) ∨
      a.1.within b.1 = true ∨ b.1.within a.1 = true := by
  by_cases heq : a = b
  · exact .inr (.inl (heq ▸ within_refl _))
  · have hsymm : Std.Symm fun (a b : Pattern × η) => a.1 ≠ b.1 ∧ a.1.orderly b.1 = true :=
      ⟨fun _ _ hab => ⟨hab.1.symm, orderly_comm _ _ ▸ hab.2⟩⟩
    have hab := List.Pairwise.forall h ha hb heq
    rcases Bool.or_eq_true_iff.mp hab.2 with hwithin | hapart
    · exact .inr (Bool.or_eq_true_iff.mp hwithin)
    · exact .inl fun target => apart_sound hapart

/-- Of two routes that match, one is within the other. -/
theorem comparable (h : Orderly table) {a b : Pattern × η} (ha : a ∈ matching table target)
    (hb : b ∈ matching table target) : a.1.within b.1 = true ∨ b.1.within a.1 = true := by
  obtain ⟨hamem, hamatch⟩ := mem_matching.mp ha
  obtain ⟨hbmem, hbmatch⟩ := mem_matching.mp hb
  exact (h.chain hamem hbmem).resolve_left fun hapart => hapart target hamatch hbmatch

/-- Patterns of which any two are one within the other have a least one. -/
theorem exists_least {routes : List (Pattern × η)} (hne : routes ≠ [])
    (h : ∀ a ∈ routes, ∀ b ∈ routes, a.1.within b.1 = true ∨ b.1.within a.1 = true) :
    ∃ least ∈ routes, ∀ other ∈ routes, least.1.within other.1 = true := by
  induction routes with
  | nil => exact absurd rfl hne
  | cons a rest ih =>
    by_cases hrest : rest = []
    · subst hrest
      refine ⟨a, List.mem_cons_self, fun other hother => ?_⟩
      rw [List.mem_singleton.mp hother]
      exact within_refl _
    · obtain ⟨least, hleast, hall⟩ := ih hrest fun b hb c hc =>
        h b (List.mem_cons_of_mem a hb) c (List.mem_cons_of_mem a hc)
      rcases h a List.mem_cons_self least (List.mem_cons_of_mem a hleast) with hwithin | hwithin
      · refine ⟨a, List.mem_cons_self, fun other hother => ?_⟩
        rcases List.mem_cons.mp hother with rfl | hother
        · exact within_refl _
        · exact within_trans hwithin (hall other hother)
      · refine ⟨least, List.mem_cons_of_mem a hleast, fun other hother => ?_⟩
        rcases List.mem_cons.mp hother with rfl | hother
        · exact hwithin
        · exact hall other hother

theorem Orderly.nodup (h : Orderly table) : (table.map Prod.fst).Nodup := by
  rw [List.Nodup, List.pairwise_map]
  exact h.imp fun hab => hab.1

/-- A pattern stands for one route. -/
theorem Orderly.inj (h : Orderly table) {a b : Pattern × η} (ha : a ∈ table) (hb : b ∈ table)
    (heq : a.1 = b.1) : a = b := by
  obtain ⟨i, hi, rfl⟩ := List.getElem_of_mem ha
  obtain ⟨j, hj, rfl⟩ := List.getElem_of_mem hb
  have hpair := List.pairwise_iff_getElem.mp h
  rcases Nat.lt_trichotomy i j with hij | rfl | hij
  · exact absurd heq (hpair i j hi hj hij).1
  · rfl
  · exact absurd heq.symm (hpair j i hj hi hij).1

/-- The route that is taken is the one within all others that match. -/
theorem dispatch_eq_some_iff (h : Orderly table) : dispatch table target = some route ↔
    route ∈ matching table target ∧
      ∀ other ∈ matching table target, route.1.within other.1 = true := by
  constructor
  · intro hfound
    have hall := @List.find?_some _ _ _ (matching table target) hfound
    exact ⟨List.mem_of_find?_eq_some hfound, List.all_eq_true.mp hall⟩
  · intro hleast
    obtain ⟨hmem, hall⟩ := hleast
    cases hfound : dispatch table target with
    | none =>
      have hnone := List.find?_eq_none.mp hfound route hmem
      exact absurd (List.all_eq_true.mpr hall) hnone
    | some other =>
      have hother := List.mem_of_find?_eq_some hfound
      have hall' := @List.find?_some _ _ _ (matching table target) hfound
      have hwithin := List.all_eq_true.mp hall' route hmem
      have heq := h.inj (mem_matching.mp hother).1 (mem_matching.mp hmem).1
        (within_antisymm hwithin (hall other hother))
      rw [heq]

/-- Where a route matches, one is taken. -/
theorem exists_dispatch (h : Orderly table) (hmem : route ∈ matching table target) :
    ∃ least, dispatch table target = some least := by
  obtain ⟨least, hleast, hall⟩ := exists_least (List.ne_nil_of_mem hmem)
    (fun a ha b hb => comparable h ha hb)
  exact ⟨least, (dispatch_eq_some_iff h).mpr ⟨hleast, hall⟩⟩

/-- The order in which the routes were added makes no difference. -/
theorem dispatch_perm (h : Orderly table) (hperm : table.Perm table') :
    dispatch table target = dispatch table' target := by
  have hmatching : ∀ route, route ∈ matching table target ↔ route ∈ matching table' target := by
    intro route
    rw [mem_matching, mem_matching, hperm.mem_iff]
  refine Option.ext fun route => ?_
  rw [dispatch_eq_some_iff h, dispatch_eq_some_iff (h.perm hperm)]
  simp only [hmatching]

/-! ### Requests as they arrive -/

/-- A text with its escapes replaced, if they are escapes. -/
def unescape : Text → Option Text
  | [] => some []
  | c :: rest =>
    if c = 37 then
      match rest with
      | a :: b :: rest =>
        match hexValue a, hexValue b with
        | some x, some y => (unescape rest).map ((16 * x + y) :: ·)
        | _, _ => none
      | _ => none
    else (unescape rest).map (c :: ·)

/-- A segment is taken as it is where its escapes are none. -/
def pathUnescape (segment : Text) : Text := (unescape segment).getD segment

example : pathUnescape (str "..%2Finjects") = str "../injects" ∧ pathUnescape (str "50%") = str "50%" :=
  by decide +kernel

def segmentsOf (path : Text) : List Text := ((path.drop 1).splitOn slash).map pathUnescape

/-- The path that a request is sent on to, where it is not its own. -/
def cleanPath (path : Text) : Text :=
  let rooted := if path.head? = some slash then path else slash :: path
  let cleaned := (clean rooted).text
  if rooted.getLast? = some slash ∧ cleaned ≠ [slash] then cleaned ++ [slash] else cleaned

/-- The pattern takes in nothing below its last slash. -/
def exactMatch (route : Option (Pattern × η)) (path : List Text) : Bool :=
  match route with
  | none => false
  | some route =>
    !route.1.subtree || (path.getLast? = some [] && route.1.segments.length + 1 = path.length)

inductive Found (η : Type) where
  | handler (h : η) (values : List Text)
  | redirect
  | methodNotAllowed
  | notFound
deriving DecidableEq

/-- Some pattern matches the path, for another method. -/
def otherMethod (table : List (Pattern × η)) (path : List Text) : Bool :=
  table.any (fun route => (matchPath route.1.subtree route.1.segments path).isSome ||
    (path.getLast? ≠ some [] &&
      (matchPath route.1.subtree route.1.segments (path ++ [[]])).isSome))

/-- With the path as it is, and as it should be. -/
def findIn (table : List (Pattern × η)) (method path cleaned : Text) : Found η :=
  let segments := segmentsOf cleaned
  let route := dispatch table ⟨method, segments⟩
  if !exactMatch route segments && cleaned.getLast? ≠ some slash &&
      exactMatch (dispatch table ⟨method, segments ++ [[]]⟩) (segments ++ [[]]) then .redirect
  else if cleaned ≠ path then .redirect
  else
    match route with
    | some route => .handler route.2 ((route.1.match? ⟨method, segments⟩).getD [])
    | none => if otherMethod table segments then .methodNotAllowed else .notFound

def findHandler (table : List (Pattern × η)) (method path : Text) : Found η :=
  findIn table method path (if method = str "CONNECT" then path else cleanPath path)

theorem length_values {subtree : Bool} {segments : List Segment} {path values : List Text}
    (h : matchPath subtree segments path = some values) :
    values.length = segments.count .wild := by
  induction segments generalizing path values with
  | nil =>
    unfold matchPath at h
    split at h
    · cases h
    · obtain rfl := Option.some.inj h
      rfl
  | cons a segments ih =>
    cases path with
    | nil => cases h
    | cons t path =>
      cases a with
      | lit text =>
        have h : (if t = text then matchPath subtree segments path else none) = some values := h
        split at h
        · rw [ih h, List.count_cons_of_ne (by simp)]
        · cases h
      | wild =>
        have h : (if t = [] then none
          else (matchPath subtree segments path).map (t :: ·)) = some values := h
        split at h
        · cases h
        · obtain ⟨rest, hrest, rfl⟩ := Option.map_eq_some_iff.mp h
          rw [List.length_cons, ih hrest, List.count_cons_self]

/-- What a wildcard stands for is not empty. -/
theorem ne_nil_of_mem_values {subtree : Bool} {segments : List Segment} {path values : List Text}
    (h : matchPath subtree segments path = some values) {value : Text} (hmem : value ∈ values) :
    value ≠ [] := by
  induction segments generalizing path values with
  | nil =>
    unfold matchPath at h
    split at h
    · cases h
    · obtain rfl := Option.some.inj h
      cases hmem
  | cons a segments ih =>
    cases path with
    | nil => cases h
    | cons t path =>
      cases a with
      | lit text =>
        have h : (if t = text then matchPath subtree segments path else none) = some values := h
        split at h
        · exact ih h hmem
        · cases h
      | wild =>
        have h : (if t = [] then none
          else (matchPath subtree segments path).map (t :: ·)) = some values := h
        split at h
        · cases h
        · rename_i ht
          obtain ⟨rest, hrest, rfl⟩ := Option.map_eq_some_iff.mp h
          rcases List.mem_cons.mp hmem with rfl | hmem
          · exact ht
          · exact ih hrest hmem

/-- A handler is that of the most specific route, and gets what its wildcards stand for. -/
theorem findHandler_eq_handler {method path : Text} {h : η} {values : List Text}
    (hfound : findHandler table method path = .handler h values) :
    ∃ route, dispatch table ⟨method, segmentsOf path⟩ = some route ∧ route.2 = h ∧
      route.1.match? ⟨method, segmentsOf path⟩ = some values := by
  unfold findHandler at hfound
  generalize (if method = str "CONNECT" then path else cleanPath path) = cleaned at hfound
  unfold findIn at hfound
  dsimp only at hfound
  split at hfound
  · cases hfound
  · split at hfound
    · cases hfound
    · rename_i hclean
      obtain rfl := not_not.mp hclean
      split at hfound
      · rename_i route hroute
        obtain ⟨rfl, rfl⟩ := Found.handler.inj hfound
        have hmatches : (route.1.match? ⟨method, segmentsOf cleaned⟩).isSome :=
          (mem_matching.mp (List.mem_of_find?_eq_some hroute)).2
        obtain ⟨values, hvalues⟩ := Option.isSome_iff_exists.mp hmatches
        exact ⟨route, hroute, rfl, by rw [hvalues]; rfl⟩
      · split at hfound <;> cases hfound

end Mux
