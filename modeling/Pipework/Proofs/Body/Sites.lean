import Mathlib.Data.List.Nodup
import Pipework.Proofs.Body.Members

/-!
# Hooks inside a body

A body may have others inside: the members of a group, and the processors of a sink. A `Site` is a
hook of one of them, or of the body itself, with the path that leads there; members and processors
are counted from 0. To open or to close a body is to call the hooks at its sites in order, until one
does not succeed (`Body.callEach_sites`). So each of them is called once, if all before it have
succeeded, and never otherwise (`InTurn`, `Site.inTurn_callEach`). A call leaves the sites of a body
as they are (`Body.sites_execute`).
-/

namespace Pipework

variable {α σ : Type}

/-- A hook of something inside a body, and the path that leads there. -/
structure Site (α σ : Type) where
  path : List Nat
  hook : Store α σ → Reply Unit × Store α σ

/-- That a hook inside a body was called, and whether it succeeded. -/
structure Site.Call where
  path : List Nat
  succeeded : Bool
  deriving DecidableEq, Repr

namespace Site

/-- A hook that does nothing. -/
def idle : Site α σ := ⟨[], fun s => (.ok (), s)⟩

/-- The same hook, as a part of something bigger. -/
def under (j : Nat) (x : Site α σ) : Site α σ := { x with path := j :: x.path }

/-- The sites of parts that are counted from `j` on. -/
def below (j : Nat) : List (List (Site α σ)) → List (Site α σ)
  | [] => []
  | xs :: rest => xs.map (under j) ++ below (j + 1) rest

/-- Goes on after a success. -/
def andThen (r : Reply Unit × Store α σ) (next : Store α σ → Reply Unit × Store α σ) :
    Reply Unit × Store α σ :=
  match r with
  | (.ok _, s) => next s
  | r => r

theorem andThen_assoc (r : Reply Unit × Store α σ) (f g : Store α σ → Reply Unit × Store α σ) :
    andThen (andThen r f) g = andThen r fun s => andThen (f s) g := by
  rcases r with ⟨_ | _ | _, s⟩ <;> rfl

theorem andThen_ok (r : Reply Unit × Store α σ) : andThen r (fun s => (.ok (), s)) = r := by
  rcases r with ⟨⟨_⟩ | _ | _, s⟩ <;> rfl

/-- Calls hooks in order, until one does not succeed. Gives the calls, and what they come to. -/
def callEach : List (Site α σ) → Store α σ → List Call × Reply Unit × Store α σ
  | [], s => ([], .ok (), s)
  | x :: xs, s =>
    match x.hook s with
    | (.ok _, s) =>
      let r := callEach xs s
      (⟨x.path, true⟩ :: r.1, r.2)
    | r => ([⟨x.path, false⟩], r)

/-! ### Calls in turn -/

section

variable {x : Site α σ} {xs : List (Site α σ)} {s : Store α σ}

theorem callEach_cons_ok (h : (x.hook s).1 = .ok ()) :
    (callEach (x :: xs) s).1 = ⟨x.path, true⟩ :: (callEach xs (x.hook s).2).1 := by
  rcases hx : x.hook s with ⟨⟨_⟩ | _ | _, s'⟩ <;> rw [hx] at h <;> cases h
  simp only [callEach, hx]

theorem callEach_cons_of_ne (h : (x.hook s).1 ≠ .ok ()) :
    (callEach (x :: xs) s).1 = [⟨x.path, false⟩] := by
  rcases hx : x.hook s with ⟨⟨_⟩ | _ | _, s'⟩ <;> rw [hx] at h
  · exact absurd rfl h
  · simp only [callEach, hx]
  · simp only [callEach, hx]

theorem callEach_cons (x : Site α σ) (xs : List (Site α σ)) (s : Store α σ) :
    (callEach (x :: xs) s).2 = andThen (x.hook s) fun s => (callEach xs s).2 := by
  rcases hx : x.hook s with ⟨_ | _ | _, s'⟩ <;> simp only [callEach, andThen, hx]

theorem callEach_append (xs ys : List (Site α σ)) (s : Store α σ) :
    (callEach (xs ++ ys) s).2 = andThen (callEach xs s).2 fun s => (callEach ys s).2 := by
  induction xs generalizing s with
  | nil => rfl
  | cons x xs ih => simp only [List.cons_append, callEach_cons, ih, andThen_assoc]

theorem callEach_map_under (j : Nat) (xs : List (Site α σ)) (s : Store α σ) :
    (callEach (xs.map (under j)) s).2 = (callEach xs s).2 := by
  induction xs generalizing s with
  | nil => rfl
  | cons x xs ih =>
    simp only [List.map_cons, callEach_cons, ih]
    rfl

/-- The parts are called in order. -/
theorem callEach_below_cons (j : Nat) (xs : List (Site α σ)) (rest : List (List (Site α σ)))
    (s : Store α σ) :
    (callEach (below j (xs :: rest)) s).2 = andThen (callEach xs s).2 fun s =>
      (callEach (below (j + 1) rest) s).2 := by
  rw [below, callEach_append, callEach_map_under]

theorem callEach_singleton (x : Site α σ) (s : Store α σ) : (callEach [x] s).2 = x.hook s :=
  (callEach_cons x [] s).trans (andThen_ok _)

theorem path_mem_of_mem_callEach {c : Call} (h : c ∈ (callEach xs s).1) : c.path ∈ xs.map path := by
  induction xs generalizing s with
  | nil => cases h
  | cons x xs ih =>
    rw [List.map_cons, List.mem_cons]
    by_cases hx : (x.hook s).1 = .ok ()
    · rw [callEach_cons_ok hx] at h
      rcases List.mem_cons.1 h with rfl | h
      · exact .inl rfl
      · exact .inr (ih h)
    · rw [callEach_cons_of_ne hx] at h
      exact .inl (congrArg Call.path (List.mem_singleton.1 h))

/-- The hook after some others is called if all of them have succeeded. -/
theorem count_callEach {before after : List (Site α σ)}
    (h : ((before ++ x :: after).map path).Nodup) (s : Store α σ) :
    ((callEach (before ++ x :: after) s).1.map Call.path).count x.path =
      if ∀ y ∈ before, ⟨y.path, true⟩ ∈ (callEach (before ++ x :: after) s).1 then 1 else 0 := by
  induction before generalizing s with
  | nil =>
    rw [List.nil_append, List.map_cons, List.nodup_cons] at h
    rw [List.nil_append, if_pos nofun]
    by_cases hx : (x.hook s).1 = .ok ()
    · rw [callEach_cons_ok hx, List.map_cons, List.count_cons_self, List.count_eq_zero_of_not_mem]
      intro hm
      obtain ⟨c, hc, he⟩ := List.mem_map.1 hm
      exact h.1 (he ▸ path_mem_of_mem_callEach hc)
    · rw [callEach_cons_of_ne hx]
      exact List.count_singleton_self
  | cons y before ih =>
    rw [List.cons_append, List.map_cons, List.nodup_cons] at h
    obtain ⟨hy, h⟩ := h
    have hxy : y.path ≠ x.path := fun he => hy (he ▸ List.mem_map_of_mem (by simp))
    rw [List.cons_append]
    by_cases hs : (y.hook s).1 = .ok ()
    · rw [callEach_cons_ok hs, List.map_cons, List.count_cons_of_ne hxy, ih h]
      refine if_congr ⟨fun hall z hz => ?_, fun hall z hz => ?_⟩ rfl rfl
      · rcases List.mem_cons.1 hz with rfl | hz
        · exact List.mem_cons_self
        · exact List.mem_cons_of_mem _ (hall z hz)
      · rcases List.mem_cons.1 (hall z (List.mem_cons_of_mem y hz)) with he | hm
        · have hzy : z.path = y.path := congrArg Call.path he
          exact absurd (hzy ▸ List.mem_map_of_mem (List.mem_append_left _ hz)) hy
        · exact hm
    · rw [callEach_cons_of_ne hs, if_neg fun hall => ?_]
      · exact List.count_eq_zero_of_not_mem fun hm => hxy (List.mem_singleton.1 hm).symm
      · have := hall y List.mem_cons_self
        simp at this

end

end Site

/-- Of the hooks at some paths each is called once, if all before it have succeeded, and never
otherwise; and no others are called. -/
structure InTurn (paths : List (List Nat)) (calls : List Site.Call) : Prop where
  count : ∀ before path after, paths = before ++ path :: after →
    (calls.map Site.Call.path).count path = if ∀ p ∈ before, ⟨p, true⟩ ∈ calls then 1 else 0
  only : ∀ c ∈ calls, c.path ∈ paths

/-- All are called once exactly if none but the last fails. -/
theorem InTurn.all_once_iff {paths : List (List Nat)} {calls : List Site.Call}
    (h : InTurn paths calls) :
    (∀ path ∈ paths, (calls.map Site.Call.path).count path = 1) ↔
      ∀ path ∈ paths.dropLast, ⟨path, true⟩ ∈ calls := by
  constructor
  · intro hall path hp
    have hne : paths ≠ [] := by
      rintro rfl
      cases hp
    have last :=
      h.count paths.dropLast (paths.getLast hne) [] (List.dropLast_append_getLast hne).symm
    rw [hall _ (List.getLast_mem hne)] at last
    by_contra hn
    rw [if_neg fun hbefore => hn (hbefore path hp)] at last
    cases last
  · intro hall path hp
    obtain ⟨before, after, he⟩ := List.append_of_mem hp
    rw [h.count before path after he, if_pos fun q hq => hall q ?_]
    rw [he, List.dropLast_append_of_ne_nil (List.cons_ne_nil path after)]
    exact List.mem_append_left _ hq

theorem Site.inTurn_callEach {xs : List (Site α σ)} (h : (xs.map path).Nodup) (s : Store α σ) :
    InTurn (xs.map path) (callEach xs s).1 where
  count := by
    intro before path after he
    obtain ⟨xs₁, xs₂, rfl, rfl, hx⟩ := List.map_eq_append_iff.1 he
    obtain ⟨x, xs₃, rfl, rfl, rfl⟩ := List.map_eq_cons_iff.1 hx
    rw [count_callEach h]
    exact if_congr (by simp) rfl rfl
  only _ := path_mem_of_mem_callEach

/-! ### Sites of a body -/

def Producer.hook (p : Producer α σ) : Hook → Store α σ → Reply Unit × Store α σ
  | .opening => p.opening
  | .closing => p.closing

def Callback.hook (b : Callback α σ) : Hook → Store α σ → Reply Unit × Store α σ
  | .opening => b.opening
  | .closing => b.closing

/-- The parts of a sink that have something to do at a hook: its processors, when it is closed. -/
def Sink.sites (b : Sink α σ) : Hook → List (List (Site α σ))
  | .opening => []
  | .closing => b.processors.map fun p => [⟨[], p.finish⟩]

def Body.hook (b : Body α σ) : Hook → Store α σ → Reply Unit × Store α σ
  | .opening => b.opening
  | .closing => b.closing

def Members.hook (ms : Members α σ) : Hook → Store α σ → Reply Unit × Store α σ
  | .opening => ms.opening
  | .closing => ms.closing

mutual

/-- The hooks of a body and of all that is inside it, in the order in which they are called. -/
def Body.sites (hook : Hook) : Body α σ → List (Site α σ)
  | .source b => [⟨[], b.producer.hook hook⟩]
  | .map _ => [.idle]
  | .split _ => [.idle]
  | .sink b => .idle :: Site.below 0 (b.sites hook)
  | .callback b => [⟨[], b.hook hook⟩]
  | .group ms => .idle :: Site.below 0 (ms.sites hook)

/-- The hooks of each member. -/
def Members.sites (hook : Hook) : Members α σ → List (List (Site α σ))
  | .nil => []
  | .cons _ b rest => b.sites hook :: rest.sites hook

end

/-- The paths to the hooks of a body and of all that is inside it. -/
def Body.paths (hook : Hook) (b : Body α σ) : List (List Nat) := (b.sites hook).map Site.path

namespace Site

/-- Paths to parts begin with the number of the part. -/
theorem le_of_mem_below {j : Nat} {xss : List (List (Site α σ))} {x : Site α σ}
    (h : x ∈ below j xss) :
    ∃ k rest, x.path = k :: rest ∧ j ≤ k := by
  induction xss generalizing j with
  | nil => cases h
  | cons xs xss ih =>
    rcases List.mem_append.1 h with h | h
    · obtain ⟨y, -, rfl⟩ := List.mem_map.1 h
      exact ⟨j, y.path, rfl, Nat.le_refl j⟩
    · obtain ⟨k, rest, hk, hle⟩ := ih h
      exact ⟨k, rest, hk, Nat.le_of_succ_le hle⟩

theorem nodup_below {xss : List (List (Site α σ))} (h : ∀ xs ∈ xss, (xs.map path).Nodup) (j : Nat) :
    ((below j xss).map path).Nodup := by
  induction xss generalizing j with
  | nil => exact List.nodup_nil
  | cons xs xss ih =>
    obtain ⟨hxs, hxss⟩ := List.forall_mem_cons.1 h
    rw [below, List.map_append, List.map_map]
    refine List.nodup_append'.2 ⟨?_, ih hxss (j + 1), fun p hp hq => ?_⟩
    · have : xs.map (path ∘ under j) = (xs.map path).map (j :: ·) := by rw [List.map_map]; rfl
      rw [this]
      exact hxs.map (List.cons_injective (a := j))
    · obtain ⟨x, -, rfl⟩ := List.mem_map.1 hp
      obtain ⟨y, hy, he⟩ := List.mem_map.1 hq
      obtain ⟨k, rest, hk, hle⟩ := le_of_mem_below hy
      rw [hk] at he
      have : k = j := (List.cons.inj he).1
      omega

/-- A hook that does nothing, and those of parts. -/
theorem nodup_idle_below {xss : List (List (Site α σ))} (h : ∀ xs ∈ xss, (xs.map path).Nodup) :
    ((idle :: below 0 xss).map path).Nodup := by
  rw [List.map_cons, List.nodup_cons]
  refine ⟨fun hm => ?_, nodup_below h 0⟩
  obtain ⟨x, hx, he⟩ := List.mem_map.1 hm
  obtain ⟨k, rest, hk, -⟩ := le_of_mem_below hx
  rw [hk] at he
  cases he

end Site

mutual

/-- No two hooks of a body are at the same path. -/
theorem Body.nodup_paths (hook : Hook) : ∀ b : Body α σ, (b.paths hook).Nodup
  | .source _ => List.nodup_singleton _
  | .map _ => List.nodup_singleton _
  | .split _ => List.nodup_singleton _
  | .sink b => Site.nodup_idle_below fun xs hxs => by
    cases hook with
    | opening => cases hxs
    | closing =>
      obtain ⟨p, -, rfl⟩ := List.mem_map.1 hxs
      exact List.nodup_singleton _
  | .callback _ => List.nodup_singleton _
  | .group ms => Site.nodup_idle_below (Members.nodup_paths hook ms)

theorem Members.nodup_paths (hook : Hook) :
    ∀ ms : Members α σ, ∀ xs ∈ ms.sites hook, (xs.map Site.path).Nodup
  | .nil => nofun
  | .cons _ b rest =>
    List.forall_mem_cons.2 ⟨Body.nodup_paths hook b, Members.nodup_paths hook rest⟩

end

/-! ### To open and to close -/

theorem Sink.callEach_below (ps : List (Processor α σ)) (j : Nat) (s : Store α σ) :
    (Site.callEach (Site.below j (ps.map fun p => [⟨[], p.finish⟩])) s).2 = finishAll ps s := by
  induction ps generalizing j s with
  | nil => rfl
  | cons p ps ih =>
    rw [List.map_cons, Site.callEach_below_cons, Site.callEach_singleton]
    simp only [ih]
    rfl

theorem Members.hook_cons (hook : Hook) (m : Standing) (b : Body α σ) (rest : Members α σ)
    (s : Store α σ) :
    (cons m b rest).hook hook s = Site.andThen (b.hook hook s) (rest.hook hook) := by
  cases hook <;> rfl

mutual

/-- **To open or to close a body is to call the hooks at its sites in order, until one does not
succeed.** -/
theorem Body.callEach_sites (hook : Hook) :
    ∀ (b : Body α σ) (s : Store α σ), (Site.callEach (b.sites hook) s).2 = b.hook hook s
  | .source _, s => by cases hook <;> exact Site.callEach_singleton _ s
  | .map _, _ => by cases hook <;> rfl
  | .split _, _ => by cases hook <;> rfl
  | .sink b, s => by
    cases hook with
    | opening => rfl
    | closing => exact Sink.callEach_below b.processors 0 s
  | .callback _, s => by cases hook <;> exact Site.callEach_singleton _ s
  | .group ms, s => by
    refine (Members.callEach_sites hook ms 0 s).trans ?_
    cases hook <;> rfl

theorem Members.callEach_sites (hook : Hook) : ∀ (ms : Members α σ) (j : Nat) (s : Store α σ),
    (Site.callEach (Site.below j (ms.sites hook)) s).2 = ms.hook hook s
  | .nil, _, _ => by cases hook <;> rfl
  | .cons m b rest, j, s => by
    rw [Members.sites, Site.callEach_below_cons, Body.callEach_sites hook b s, Members.hook_cons]
    simp only [Members.callEach_sites hook rest (j + 1)]

end

/-! ### Calls -/

mutual

/-- A call leaves the hooks of a body and of all that is inside it as they are. -/
theorem Body.sites_execute (hook : Hook) :
    ∀ (b : Body α σ) (v : Visit) (s : Store α σ), (b.execute v s).body.sites hook = b.sites hook
  | .source b, v, s => by
    have core := congrArg Source.producer (b.core_execute v s)
    exact congrArg (fun p => [(⟨[], p.hook hook⟩ : Site α σ)]) core
  | .map _, _, _ => rfl
  | .split _, _, _ => rfl
  | .sink b, v, s => by
    have core := congrArg Sink.processors (b.core_execute v s)
    cases hook with
    | opening => rfl
    | closing =>
      exact congrArg (fun ps => .idle :: Site.below 0 (ps.map fun p => [⟨[], p.finish⟩])) core
  | .callback _, _, _ => rfl
  | .group ms, v, s => by
    rw [Body.body_execute_group]
    exact congrArg (fun xss => .idle :: Site.below 0 xss) (Members.sites_execute hook ms _ v s)

theorem Members.sites_execute (hook : Hook) :
    ∀ (ms : Members α σ) (p? : Option Passage) (v : Visit) (s : Store α σ),
    (ms.execute p? v s).members.sites hook = ms.sites hook
  | .nil, _, _, _ => rfl
  | .cons m b rest, p?, v, s => by
    have body := Body.sites_execute hook b (.start v.worker v.location v.chunk) s
    rcases Members.execute_cons_cases m b rest p? v s with ⟨-, hc⟩ | ⟨v', m', -, hc⟩ |
      ⟨p, items, o, -, -, -, hc⟩
    · rw [hc]
      exact congrArg (b.sites hook :: ·) (Members.sites_execute hook rest _ _ _)
    · rw [hc]
      exact congrArg (· :: rest.sites hook) body
    · rw [hc]
      exact congrArg₂ List.cons body (Members.sites_execute hook rest _ _ _)

end

end Pipework
