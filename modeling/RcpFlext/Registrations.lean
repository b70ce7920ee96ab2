import Mathlib.Data.List.Perm.Basic
import RcpFlext.Atoms
import RcpFlext.Library.Runs

/- Which transporters a ParameterServer has registered with its `rcp_server`, and the port it
   reports. Each transporter registers itself when it is made and takes itself back when it
   is destroyed; a replaced one is destroyed behind the new one. -/
namespace Registrations
open Atoms

inductive Call where
  | addTransporter (t : Nat)
  | removeTransporter (t : Nat)
  | free (t : Nat)
  | serverFree
  deriving DecidableEq

structure Registry where
  registered : List Nat
  freed : List Nat
  deriving DecidableEq

/-- Only a live transporter that is not there is added, only one that is there is removed, only
    one that is not there is freed, once, and nothing is left behind when the server goes. -/
def registry : Runs.Machine Registry Call Unit := fun r c =>
  match c with
  | .addTransporter t =>
    if t ∈ r.registered ∨ t ∈ r.freed then none
    else some ({ r with registered := t :: r.registered }, ())
  | .removeTransporter t =>
    if t ∈ r.registered then some ({ r with registered := r.registered.erase t }, ()) else none
  | .free t =>
    if t ∈ r.registered ∨ t ∈ r.freed then none else some ({ r with freed := t :: r.freed }, ())
  | .serverFree => if r.registered = [] then some (r, ()) else none

/-- `m_transporter` is the address in either, none where there was no memory for it. -/
inductive IServerTransporter where
  | pd (m_transporter : Option Nat)
  | websocket (m_transporter : Option Nat) (m_port : BitVec 16) (is_listening : Bool)
  deriving DecidableEq

namespace IServerTransporter

def transporter : IServerTransporter → Option Nat
  | .pd t => t
  | .websocket t _ _ => t

def port : IServerTransporter → BitVec 16
  | .pd _ => 0
  | .websocket _ p _ => p

def isListening : IServerTransporter → Bool
  | .pd _ => true
  | .websocket _ _ l => l

def bind (p : BitVec 16) : IServerTransporter → IServerTransporter
  | .pd t => .pd t
  | .websocket t _ l => .websocket t p l

end IServerTransporter

def made (m_transporter : Option Nat) : List Call :=
  m_transporter.toList.map .addTransporter

def destroyed (m_transporter : Option Nat) : List Call :=
  m_transporter.toList.flatMap fun t => [.removeTransporter t, .free t]

/-- `allocated` addresses have been given out, `gone` after the destructor. -/
structure ParameterServer where
  m_raw : Bool
  m_transporter : Option IServerTransporter
  m_rabbitholeTransporter : Option (Option Nat)
  errors : List (String × List Int)
  allocated : Nat
  gone : Bool
  deriving DecidableEq

/-- Each attribute with whether `RCP_CALLOC` finds memory; `listens` is what the websocket
    server's own threads do. -/
inductive Event where
  | listen (p : Int) (memory : Bool)
  | listens (is_listening : Bool)
  | setRabbithole (memory : Bool)
  | destroy
  deriving DecidableEq

namespace ParameterServer

def calloc (s : ParameterServer) (memory : Bool) : Option Nat :=
  if memory then some s.allocated else none

def asksRaw (argv : List Atom) : Bool :=
  argv.any fun a => a = .symbol (.ofBytes (text ['-', 'r', 'a', 'w']))

def create (argv : List Atom) (memory : Bool) : ParameterServer × List Call :=
  let s : ParameterServer := ⟨asksRaw argv, none, none, [], 0, false⟩
  if asksRaw argv then
    ({ s with m_transporter := some (.pd (s.calloc memory)), allocated := 1 },
      made (s.calloc memory))
  else (s, [])

def listen (s : ParameterServer) (p : Int) (memory : Bool) : ParameterServer × List Call :=
  if s.m_raw then (s, [])
  else if ∃ t, s.m_transporter = some t ∧ t.isListening = true ∧ p = t.port.toNat then (s, [])
  else if 65535 < p then ({ s with errors := s.errors ++ [("invalid port: %d", [p])] }, [])
  else if 0 < p then
    let t := s.calloc memory
    ({ s with
        m_transporter := some ((IServerTransporter.websocket t 0 false).bind (BitVec.ofInt 16 p))
        allocated := s.allocated + 1 },
      made t ++ destroyed (s.m_transporter.bind (·.transporter)))
  else ({ s with m_transporter := none }, destroyed (s.m_transporter.bind (·.transporter)))

def getPort (s : ParameterServer) : Int :=
  match s.m_transporter with
  | some t => t.port.toNat
  | none => 0

def setRabbithole (s : ParameterServer) (memory : Bool) : ParameterServer × List Call :=
  match s.m_rabbitholeTransporter with
  | some _ => (s, [])
  | none =>
    let t := s.calloc memory
    ({ s with m_rabbitholeTransporter := some t, allocated := s.allocated + 1 }, made t)

def destroy (s : ParameterServer) : ParameterServer × List Call :=
  ({ s with m_transporter := none, m_rabbitholeTransporter := none, gone := true },
    destroyed (s.m_transporter.bind (·.transporter)) ++
      destroyed (s.m_rabbitholeTransporter.bind id) ++ [.serverFree])

end ParameterServer

def step : Runs.Machine ParameterServer Event (List Call) := fun s e =>
  if s.gone then none
  else match e with
    | .listen p memory => some (s.listen p memory)
    | .listens l => s.m_transporter.bind fun t =>
      match t with
      | .pd _ => none
      | .websocket m_transporter m_port _ =>
        some ({ s with m_transporter := some (.websocket m_transporter m_port l) }, [])
    | .setRabbithole memory => some (s.setRabbithole memory)
    | .destroy => some s.destroy

def held (s : ParameterServer) : List Nat :=
  (s.m_transporter.bind (·.transporter)).toList ++ (s.m_rabbitholeTransporter.bind id).toList

structure Kept (s : ParameterServer) (r : Registry) : Prop where
  same : r.registered.Perm (held s)
  distinct : (held s).Nodup
  given : ∀ t ∈ held s ++ r.freed, t < s.allocated
  dead : ∀ t ∈ r.freed, t ∉ held s

section
variable {s : ParameterServer} {r : Registry} {e : Event} {next : ParameterServer × List Call}

theorem calloc_new {memory : Bool} {t : Nat} (taken : t ∈ (s.calloc memory).toList) :
    t = s.allocated := by
  unfold ParameterServer.calloc at taken
  split at taken
  · simpa using taken
  · contradiction

theorem made_runs {t : Option Nat} (alive : ∀ a ∈ t.toList, a ∉ r.registered ∧ a ∉ r.freed) :
    Runs.run registry r (made t) = some { r with registered := t.toList ++ r.registered } := by
  cases t with
  | none => rfl
  | some a =>
    obtain ⟨outside, live⟩ := alive a (by simp)
    simp [made, Runs.run, registry, outside, live]

theorem destroyed_runs {t : Option Nat} {rest : List Nat}
    (same : r.registered.Perm (t.toList ++ rest)) (distinct : (t.toList ++ rest).Nodup)
    (live : ∀ a ∈ t.toList, a ∉ r.freed) :
    ∃ registered, Runs.run registry r (destroyed t) = some ⟨registered, t.toList ++ r.freed⟩ ∧
      registered.Perm rest := by
  cases t with
  | none => exact ⟨r.registered, rfl, same⟩
  | some a =>
    have inside : a ∈ r.registered := same.mem_iff.mpr (by simp)
    have left : (r.registered.erase a).Perm rest := by simpa using same.erase a
    have outside : a ∉ r.registered.erase a := by
      intro still
      exact (List.nodup_cons.mp distinct).1 (left.mem_iff.mp still)
    refine ⟨r.registered.erase a, ?_, left⟩
    simp [destroyed, Runs.run, registry, inside, outside, live a (by simp)]

theorem fresh_outside (kept : Kept s r) (memory : Bool) :
    ∀ a ∈ (s.calloc memory).toList, a ∉ held s ∧ a ∉ r.freed := by
  intro a taken
  have new := calloc_new taken
  constructor
  · intro old
    have lower := kept.given a (List.mem_append_left _ old)
    omega
  · intro old
    have lower := kept.given a (List.mem_append_right _ old)
    omega

/-- The new one is added before the old one goes; either may be missing. -/
theorem exchange_kept (kept : Kept s r) (next : ParameterServer) (old new : Option Nat)
    (rest : List Nat) (before : (held s).Perm (old.toList ++ rest))
    (after : (held next).Perm (new.toList ++ rest))
    (fresh : ∀ a ∈ new.toList, a ∉ held s ∧ a ∉ r.freed)
    (counted : ∀ a ∈ new.toList, a < next.allocated) (more : s.allocated ≤ next.allocated) :
    ∃ r', Runs.run registry r (made new ++ destroyed old) = some r' ∧ Kept next r' := by
  have some_rest : ∀ a ∈ rest, a ∈ held s := fun a mem =>
    before.mem_iff.mpr (List.mem_append_right _ mem)
  have some_old : ∀ a ∈ old.toList, a ∈ held s := fun a mem =>
    before.mem_iff.mpr (List.mem_append_left _ mem)
  have distinct : (old.toList ++ rest).Nodup := before.nodup_iff.mp kept.distinct
  have added : Runs.run registry r (made new) =
      some { r with registered := new.toList ++ r.registered } :=
    made_runs fun a mem => ⟨fun still => (fresh a mem).1 (kept.same.mem_iff.mp still),
      (fresh a mem).2⟩
  have both : (new.toList ++ r.registered).Perm (old.toList ++ (new.toList ++ rest)) := by
    calc (new.toList ++ r.registered).Perm (new.toList ++ (old.toList ++ rest)) :=
          (kept.same.trans before).append_left _
      _ |>.Perm (old.toList ++ (new.toList ++ rest)) := by
          rw [← List.append_assoc, ← List.append_assoc]
          exact List.perm_append_comm.append_right rest
  have new_rest : (new.toList ++ rest).Nodup := by
    refine List.nodup_append.mpr ⟨by cases new <;> simp, (List.nodup_append.mp distinct).2.1, ?_⟩
    intro a mem b old_b same
    exact (fresh a mem).1 (same ▸ some_rest b old_b)
  have all : (old.toList ++ (new.toList ++ rest)).Nodup := by
    refine List.nodup_append.mpr ⟨(List.nodup_append.mp distinct).1, new_rest, ?_⟩
    intro a old_a b mem same
    rcases List.mem_append.mp mem with in_new | in_rest
    · exact (fresh b in_new).1 (same ▸ some_old a old_a)
    · exact (List.nodup_append.mp distinct).2.2 a old_a b in_rest same
  obtain ⟨registered, dropped, left⟩ := @destroyed_runs
    { r with registered := new.toList ++ r.registered } old (new.toList ++ rest) both all
    fun a mem dead => kept.dead a dead (some_old a mem)
  refine ⟨⟨registered, old.toList ++ r.freed⟩, ?_, ?_⟩
  · rw [Runs.run_append, added]
    exact dropped
  · refine ⟨left.trans after.symm, after.nodup_iff.mpr new_rest, ?_, ?_⟩
    · intro a mem
      have below (a : Nat) (known : a ∈ held s ++ r.freed) : a < next.allocated :=
        Nat.lt_of_lt_of_le (kept.given a known) more
      rcases List.mem_append.mp mem with in_next | in_freed
      · rcases List.mem_append.mp (after.mem_iff.mp in_next) with in_new | in_rest
        · exact counted a in_new
        · exact below a (List.mem_append_left _ (some_rest a in_rest))
      · rcases List.mem_append.mp in_freed with in_old | dead
        · exact below a (List.mem_append_left _ (some_old a in_old))
        · exact below a (List.mem_append_right _ dead)
    · intro a mem in_next
      rcases List.mem_append.mp mem with in_old | dead
      · exact (List.nodup_append.mp all).2.2 a in_old a (after.mem_iff.mp in_next) rfl
      · rcases List.mem_append.mp (after.mem_iff.mp in_next) with in_new | in_rest
        · exact (fresh a in_new).2 dead
        · exact kept.dead a dead (some_rest a in_rest)

theorem listen_kept (kept : Kept s r) (p : Int) (memory : Bool) :
    ∃ r', Runs.run registry r (s.listen p memory).2 = some r' ∧ Kept (s.listen p memory).1 r' := by
  unfold ParameterServer.listen
  split
  · exact ⟨r, rfl, kept⟩
  split
  · exact ⟨r, rfl, kept⟩
  split
  · exact ⟨r, rfl, kept.same, kept.distinct, kept.given, kept.dead⟩
  split
  · exact exchange_kept kept _ _ (s.calloc memory) _ (List.Perm.refl _) (List.Perm.refl _)
      (fresh_outside kept memory)
      (fun a taken => Nat.lt_succ_of_le (Nat.le_of_eq (calloc_new taken))) (Nat.le_succ _)
  · exact exchange_kept kept _ _ none _ (List.Perm.refl _) (List.Perm.refl _) (by simp) (by simp)
      (Nat.le_refl _)

theorem setRabbithole_kept (kept : Kept s r) (memory : Bool) :
    ∃ r', Runs.run registry r (s.setRabbithole memory).2 = some r' ∧
      Kept (s.setRabbithole memory).1 r' := by
  unfold ParameterServer.setRabbithole
  split
  · exact ⟨r, rfl, kept⟩
  · rename_i absent
    have before : (held s).Perm ((none : Option Nat).toList ++
        (s.m_transporter.bind (·.transporter)).toList) := by simp [held, absent]
    have exchanged := exchange_kept kept { s with
        m_rabbitholeTransporter := some (s.calloc memory)
        allocated := s.allocated + 1 } none (s.calloc memory) _ before List.perm_append_comm
      (fresh_outside kept memory)
      (fun a taken => Nat.lt_succ_of_le (Nat.le_of_eq (calloc_new taken))) (Nat.le_succ _)
    simpa [destroyed] using exchanged

theorem destroy_kept (kept : Kept s r) :
    ∃ r', Runs.run registry r s.destroy.2 = some r' ∧ Kept s.destroy.1 r' := by
  obtain ⟨r₁, first, kept₁⟩ := exchange_kept kept { s with m_transporter := none } _ none
    _ (List.Perm.refl _) (List.Perm.refl _) (by simp) (by simp) (Nat.le_refl _)
  obtain ⟨r₂, second, kept₂⟩ := exchange_kept kept₁ s.destroy.1
    (s.m_rabbitholeTransporter.bind id) none [] (by simp [held])
    (List.Perm.refl _) (by simp) (by simp) (Nat.le_refl _)
  have nobody : r₂.registered = [] := List.perm_nil.mp kept₂.same
  refine ⟨r₂, ?_, kept₂⟩
  simp only [made, Option.toList_none, List.map_nil, List.nil_append] at first second
  rw [ParameterServer.destroy, List.append_assoc, Runs.run_append, first, Option.bind_some,
    Runs.run_append, second]
  simp [Runs.run, registry, nobody]

theorem step_kept (kept : Kept s r) (stepped : step s e = some next) :
    ∃ r', Runs.run registry r next.2 = some r' ∧ Kept next.1 r' := by
  unfold step at stepped
  split at stepped
  · contradiction
  cases e with
  | listen p memory =>
    cases stepped
    exact listen_kept kept p memory
  | listens l =>
    obtain ⟨t, current, told⟩ := Option.bind_eq_some_iff.mp stepped
    cases t with
    | pd m_transporter => contradiction
    | websocket m_transporter m_port is_listening =>
      cases told
      have same : held { s with m_transporter := some (.websocket m_transporter m_port l) } =
          held s := by simp [held, current, IServerTransporter.transporter]
      exact ⟨r, rfl, by rw [same]; exact kept.same, by rw [same]; exact kept.distinct,
        by rw [same]; exact kept.given, by rw [same]; exact kept.dead⟩
  | setRabbithole memory =>
    cases stepped
    exact setRabbithole_kept kept memory
  | destroy =>
    cases stepped
    exact destroy_kept kept

theorem create_kept (argv : List Atom) (memory : Bool) :
    ∃ r, Runs.run registry ⟨[], []⟩ (ParameterServer.create argv memory).2 = some r ∧
      Kept (ParameterServer.create argv memory).1 r := by
  simp only [ParameterServer.create]
  split
  · cases memory
    · exact ⟨⟨[], []⟩, rfl, List.Perm.nil, List.nodup_nil, by simp [held, ParameterServer.calloc,
        IServerTransporter.transporter], by simp⟩
    · exact ⟨⟨[0], []⟩, rfl, List.Perm.refl _, List.nodup_singleton 0, by simp [held,
        ParameterServer.calloc, IServerTransporter.transporter], by simp⟩
  · exact ⟨⟨[], []⟩, rfl, List.Perm.nil, List.nodup_nil, by simp [held], by simp⟩

def callsIn (s : ParameterServer) (es : List Event) : List Call :=
  Runs.told step (fun _ _ next => next.2) s es

theorem run_kept {t : ParameterServer} {es : List Event} (kept : Kept s r)
    (ran : Runs.run step s es = some t) :
    ∃ r', Runs.run registry r (callsIn s es) = some r' ∧ Kept t r' := by
  induction es generalizing s r with
  | nil =>
    cases ran
    exact ⟨r, rfl, kept⟩
  | cons e es ih =>
    obtain ⟨next, stepped, rest⟩ := Option.bind_eq_some_iff.mp ran
    obtain ⟨r₁, now, kept₁⟩ := step_kept kept stepped
    obtain ⟨r₂, later, kept₂⟩ := ih kept₁ rest
    refine ⟨r₂, ?_, kept₂⟩
    rw [callsIn, Runs.told_cons stepped, Runs.run_append, now]
    exact later

def Ended (s : ParameterServer) : Prop :=
  s.gone = true → held s = []

theorem step_ended (stepped : step s e = some next) : Ended next.1 := by
  unfold step at stepped
  split at stepped
  · contradiction
  rename_i alive
  cases e with
  | listen p memory =>
    cases stepped
    have same : (s.listen p memory).1.gone = s.gone := by
      unfold ParameterServer.listen
      split
      · rfl
      split
      · rfl
      split
      · rfl
      split <;> rfl
    exact fun gone => absurd (same ▸ gone) alive
  | listens l =>
    obtain ⟨t, _, told⟩ := Option.bind_eq_some_iff.mp stepped
    cases t with
    | pd m_transporter => contradiction
    | websocket m_transporter m_port is_listening =>
      cases told
      exact fun gone => absurd gone alive
  | setRabbithole memory =>
    cases stepped
    unfold ParameterServer.setRabbithole
    split <;> exact fun gone => absurd gone alive
  | destroy =>
    cases stepped
    exact fun _ => rfl

/-- Whatever is set and however the memory runs out, rcp-c has exactly the live transporters,
    each once; none is added twice, removed or freed when it should not be, and none is left
    when the server is freed. -/
theorem registered_exact (argv : List Atom) (memory : Bool) (es : List Event)
    (s : ParameterServer)
    (ran : Runs.run step (ParameterServer.create argv memory).1 es = some s) :
    ∃ r, Runs.run registry ⟨[], []⟩ ((ParameterServer.create argv memory).2 ++
        callsIn (ParameterServer.create argv memory).1 es) = some r ∧
      r.registered.Nodup ∧ (∀ t, t ∈ r.registered ↔ t ∈ held s) ∧ (∀ t ∈ r.freed, t ∉ held s) ∧
      (s.gone = true → r.registered = []) := by
  obtain ⟨r₁, first, kept₁⟩ := create_kept argv memory
  obtain ⟨r, later, kept⟩ := run_kept kept₁ ran
  have alive : (ParameterServer.create argv memory).1.gone = false := by
    simp only [ParameterServer.create]
    split <;> rfl
  have start : Ended (ParameterServer.create argv memory).1 := by simp [Ended, alive]
  have ended : Ended s := Runs.run_keeps (fun _ _ _ _ stepped => step_ended stepped) start ran
  refine ⟨r, ?_, kept.same.nodup_iff.mpr kept.distinct, fun t => kept.same.mem_iff, kept.dead, ?_⟩
  · rw [Runs.run_append, first]
    exact later
  · intro gone
    exact List.perm_nil.mp (ended gone ▸ kept.same)

end

def moves : List Event :=
  [.listen 9000 true, .listens true, .setRabbithole false, .listen 9001 true, .listen 70000 true,
    .destroy]

theorem moves_registered : ∃ s, Runs.run step (ParameterServer.create [] true).1 moves = some s ∧
    ∃ r, Runs.run registry ⟨[], []⟩ ((ParameterServer.create [] true).2 ++
        callsIn (ParameterServer.create [] true).1 moves) = some r ∧
      r.registered.Nodup ∧ (∀ t, t ∈ r.registered ↔ t ∈ held s) ∧ (∀ t ∈ r.freed, t ∉ held s) ∧
      (s.gone = true → r.registered = []) :=
  ⟨_, rfl, registered_exact [] true moves _ rfl⟩

/- The port that is reported. -/

/-- The last port that could be one; 0 and less take it back. -/
def wanted (port : Int) : Event → Int
  | .listen p _ => if 65535 < p then port else if 0 < p then p else 0
  | .destroy => 0
  | _ => port

def Portless (s : ParameterServer) : Prop :=
  s.m_raw = true → ∀ t, s.m_transporter = some t → ∃ a, t = .pd a

section
variable {s : ParameterServer} {e : Event} {next : ParameterServer × List Call}

theorem portless_getPort (portless : Portless s) (raw : s.m_raw = true) : s.getPort = 0 := by
  unfold ParameterServer.getPort
  split
  · rename_i t current
    obtain ⟨a, rfl⟩ := portless raw t current
    rfl
  · rfl

theorem listen_port (off : s.m_raw = false) (p : Int) (memory : Bool) :
    (s.listen p memory).1.getPort = wanted s.getPort (.listen p memory) := by
  show _ = if 65535 < p then s.getPort else if 0 < p then p else 0
  unfold ParameterServer.listen
  rw [if_neg (by simp [off])]
  by_cases same : ∃ t, s.m_transporter = some t ∧ t.isListening = true ∧ p = t.port.toNat
  · rw [if_pos same]
    obtain ⟨t, current, listening, port⟩ := same
    have small := t.port.isLt
    have now : s.getPort = p := by simp [ParameterServer.getPort, current, port]
    rw [if_neg (by omega), now]
    split <;> omega
  · rw [if_neg same]
    by_cases big : 65535 < p
    · simp only [if_pos big, ParameterServer.getPort]
    · rw [if_neg big, if_neg big]
      by_cases positive : 0 < p
      · have value : (BitVec.ofInt 16 p).toNat = p.toNat := by
          simp only [BitVec.toNat_ofInt]
          omega
        simp only [if_pos positive, ParameterServer.getPort, IServerTransporter.bind,
          IServerTransporter.port, value]
        omega
      · simp only [if_neg positive, ParameterServer.getPort]

theorem listen_raw (s : ParameterServer) (p : Int) (memory : Bool) :
    (s.listen p memory).1.m_raw = s.m_raw := by
  unfold ParameterServer.listen
  split
  · rfl
  split
  · rfl
  split
  · rfl
  split <;> rfl

theorem step_port (portless : Portless s) (stepped : step s e = some next) :
    Portless next.1 ∧ next.1.m_raw = s.m_raw ∧
      (s.m_raw = false → next.1.getPort = wanted s.getPort e) := by
  unfold step at stepped
  split at stepped
  · contradiction
  cases e with
  | listen p memory =>
    cases stepped
    refine ⟨?_, listen_raw s p memory, fun off => listen_port off p memory⟩
    intro raw
    rw [listen_raw] at raw
    simpa [ParameterServer.listen, raw] using portless raw
  | listens l =>
    obtain ⟨t, current, told⟩ := Option.bind_eq_some_iff.mp stepped
    cases t with
    | pd m_transporter => contradiction
    | websocket m_transporter m_port is_listening =>
      cases told
      refine ⟨?_, rfl, fun _ => by simp [ParameterServer.getPort, current, wanted,
        IServerTransporter.port]⟩
      intro raw
      obtain ⟨a, impossible⟩ := portless raw _ current
      contradiction
  | setRabbithole memory =>
    cases stepped
    have same : (s.setRabbithole memory).1.m_raw = s.m_raw ∧
        (s.setRabbithole memory).1.m_transporter = s.m_transporter := by
      unfold ParameterServer.setRabbithole
      split <;> exact ⟨rfl, rfl⟩
    refine ⟨?_, same.1, fun _ => by simp [ParameterServer.getPort, same.2, wanted]⟩
    unfold Portless
    rw [same.1, same.2]
    exact portless
  | destroy =>
    cases stepped
    exact ⟨fun _ t missing => by simp [ParameterServer.destroy] at missing, rfl, fun _ => rfl⟩

theorem run_port {t : ParameterServer} {es : List Event} (portless : Portless s)
    (ran : Runs.run step s es = some t) :
    Portless t ∧ t.m_raw = s.m_raw ∧
      (s.m_raw = false → t.getPort = es.foldl wanted s.getPort) := by
  induction es generalizing s with
  | nil =>
    cases ran
    exact ⟨portless, rfl, fun _ => rfl⟩
  | cons e es ih =>
    obtain ⟨next, stepped, rest⟩ := Option.bind_eq_some_iff.mp ran
    obtain ⟨portless₁, mode, port⟩ := step_port portless stepped
    obtain ⟨portless₂, modes, ports⟩ := ih portless₁ rest
    refine ⟨portless₂, modes.trans mode, ?_⟩
    intro off
    rw [ports (mode.trans off), port off, List.foldl_cons]

theorem create_portless (argv : List Atom) (memory : Bool) :
    Portless (ParameterServer.create argv memory).1 ∧
      (ParameterServer.create argv memory).1.m_raw = ParameterServer.asksRaw argv ∧
      (ParameterServer.create argv memory).1.getPort = 0 := by
  simp only [ParameterServer.create]
  split
  · rename_i raw
    exact ⟨fun _ t current => ⟨_, (Option.some.inj current).symm⟩, rfl, rfl⟩
  · rename_i open_ports
    exact ⟨fun raw => absurd raw open_ports, rfl, rfl⟩

/-- The port asked for is the last valid one that was set, whatever the sockets made of it; a
    raw server has none. -/
theorem port_follows (argv : List Atom) (memory : Bool) (es : List Event) (s : ParameterServer)
    (ran : Runs.run step (ParameterServer.create argv memory).1 es = some s) :
    s.getPort = if ParameterServer.asksRaw argv then 0 else es.foldl wanted 0 := by
  obtain ⟨portless, mode, closed⟩ := create_portless argv memory
  obtain ⟨still, modes, ports⟩ := run_port portless ran
  by_cases raw : ParameterServer.asksRaw argv = true
  · rw [if_pos raw]
    exact portless_getPort still (modes.trans (mode.trans raw))
  · rw [if_neg raw, ports (mode.trans (Bool.eq_false_iff.mpr raw)), closed]

end

theorem moves_port : ∃ s, Runs.run step (ParameterServer.create [] true).1 (moves.take 5) = some s ∧
    s.getPort = if ParameterServer.asksRaw [] then 0 else (moves.take 5).foldl wanted 0 :=
  ⟨_, rfl, port_follows [] true (moves.take 5) _ rfl⟩

end Registrations
