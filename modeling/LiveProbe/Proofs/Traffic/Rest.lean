import LiveProbe.Proofs.Traffic.Sections
import Mathlib.Data.Prod.Lex
import Mathlib.Logic.Hydra
import Mathlib.Tactic.Abel

/-!
Traffic comes to rest. A section replaces a job by jobs of a lower rank, however many they are, so
that no run goes on for ever without new jobs; and as long as anything is under way, some thread can
go on.
-/
namespace LiveProbe

def Job.rank : Job → ℕ ×ₗ ℕ
  | .define _ _ | .load _ _ => toLex (7, 0)
  | .register _ => toLex (6, 0)
  | .announce _ => toLex (5, 0)
  | .install _ | .close => toLex (4, 0)
  | .notify targets => toLex (3, targets.length)
  | .add _ | .keep _ => toLex (3, 0)

def Hold.rank : Hold → ℕ ×ₗ ℕ
  | .clearHooks => toLex (3, 0)
  | .request _ _ | .clearPending => toLex (2, 0)
  | .dropPending stale _ => toLex (2, stale.length)
  | .enter _ _ _ | .clearProbes => toLex (1, 0)
  | .dropInstalled stale => toLex (1, stale.length)

theorem rank_lt {a b m n : ℕ} (lower : a < b ∨ a = b ∧ m < n) :
    (toLex (a, m) : ℕ ×ₗ ℕ) < toLex (b, n) := Prod.Lex.toLex_lt_toLex.mpr lower

section Lower

variable {s setup : Setup} {job : Job} {next : Multiset Job} {hold : Hold} {holder : Option Hold}

theorem Job.Runs.lower (part : job.Runs s setup next) : ∀ other ∈ next, other.rank < job.rank := by
  intro other member
  cases part with
  | define =>
    rw [(Traffic.mem_subscribed.mp member).1]
    exact rank_lt (by omega)
  | load =>
    rw [(Traffic.mem_subscribed.mp member).1]
    exact rank_lt (by omega)
  | register known =>
    split at member
    · rw [(Traffic.mem_heard.mp member).1]
      exact rank_lt (by omega)
    · cases member
  | announce =>
    split at member
    · cases member
    · rw [Multiset.mem_singleton.mp member]
      exact rank_lt (by omega)
  | install perm =>
    rw [Multiset.mem_singleton.mp member]
    exact rank_lt (by omega)
  | notified => cases member

theorem Job.Locks.lower (part : job.Locks s setup next holder) :
    (∀ other ∈ next, other.rank < job.rank) ∧
      ∀ hold, holder = some hold → hold.rank < job.rank := by
  cases part with
  | notify =>
    refine ⟨fun other member => ?_, nofun⟩
    rw [Multiset.mem_singleton.mp member]
    exact rank_lt (Or.inr ⟨rfl, Nat.lt_succ_self _⟩)
  | misplaced | idle | joins =>
    exact ⟨fun _ member => absurd member (Multiset.notMem_zero _), nofun⟩
  | founds | keep | close =>
    refine ⟨fun _ member => absurd member (Multiset.notMem_zero _), fun hold same => ?_⟩
    cases same
    exact rank_lt (by omega)

theorem Hold.Runs.lower (part : hold.Runs s setup holder) :
    ∀ hold', holder = some hold' → hold'.rank < hold.rank := by
  intro hold' same
  cases part <;> cases same
  case dropPending | dropInstalled => exact rank_lt (Or.inr ⟨rfl, Nat.lt_succ_self _⟩)
  all_goals exact rank_lt (by omega)

end Lower

namespace Traffic

variable {s s' : Traffic}

/-- What is under way goes on, and nobody sets out to do anything else. -/
abbrev Proceeds : Traffic → Traffic → Prop := Step fun _ => False

def ranks (s : Traffic) : Multiset (ℕ ×ₗ ℕ) :=
  s.jobs.map Job.rank + s.holder.elim 0 fun hold => {hold.rank}

theorem mem_elim_rank {holder : Option Hold} {rank : ℕ ×ₗ ℕ} :
    rank ∈ (holder.elim 0 fun hold => {hold.rank} : Multiset (ℕ ×ₗ ℕ)) ↔
      ∃ hold, holder = some hold ∧ rank = hold.rank := by
  cases holder <;> simp

theorem Proceeds.lower (step : Proceeds s s') :
    Relation.CutExpand (· < ·) s'.ranks s.ranks := by
  cases step with
  | begins allowed => exact allowed.elim
  | @runs job others next setup ready part =>
    refine ⟨next.map Job.rank, job.rank, fun rank member => ?_, ?_⟩
    · obtain ⟨other, listed, rfl⟩ := Multiset.mem_map.mp member
      exact part.lower other listed
    · simp only [ranks, ready, ← Multiset.singleton_add, Multiset.map_add, Multiset.map_singleton]
      abel
  | @locks job others next setup holder ready free part =>
    refine ⟨next.map Job.rank + holder.elim 0 fun hold => {hold.rank}, job.rank,
      fun rank member => ?_, ?_⟩
    · rcases Multiset.mem_add.mp member with told | held
      · obtain ⟨other, listed, rfl⟩ := Multiset.mem_map.mp told
        exact part.lower.1 other listed
      · obtain ⟨hold, same, rfl⟩ := mem_elim_rank.mp held
        exact part.lower.2 hold same
    · simp only [ranks, ready, free, Option.elim_none, ← Multiset.singleton_add, Multiset.map_add,
        Multiset.map_singleton]
      abel
  | @holds hold setup holder held part =>
    refine ⟨holder.elim 0 fun hold => {hold.rank}, hold.rank, fun rank member => ?_, ?_⟩
    · obtain ⟨hold', same, rfl⟩ := mem_elim_rank.mp member
      exact part.lower hold' same
    · simp only [ranks, held, Option.elim_some]
      abel

theorem acc_proceeds (s : Traffic) : Acc (fun s' s => Proceeds s s') s :=
  Subrelation.accessible (fun step => Proceeds.lower step)
    (InvImage.accessible ranks (wellFounded_lt.cutExpand.apply s.ranks))

theorem Hold.exists_runs (hold : Hold) (s : Setup) : ∃ setup holder, hold.Runs s setup holder := by
  cases hold with
  | request p target =>
    cases answer : (s.requestHook target).1 with
    | error e => exact ⟨_, _, .refused answer⟩
    | ok installed => exact ⟨_, _, .requested answer⟩
  | enter p target installed => exact ⟨_, _, .enter⟩
  | dropPending stale named =>
    cases stale with
    | nil => exact ⟨_, _, .turn (List.Perm.refl _)⟩
    | cons e rest => exact ⟨_, _, .dropPending⟩
  | dropInstalled stale =>
    cases stale with
    | nil => exact ⟨_, _, .kept⟩
    | cons e rest => exact ⟨_, _, .dropInstalled⟩
  | clearHooks => exact ⟨_, _, .clearHooks⟩
  | clearPending => exact ⟨_, _, .clearPending⟩
  | clearProbes => exact ⟨_, _, .clearProbes⟩

theorem Job.exists_part (job : Job) {s : Setup} (code : s.engine.code.isSome = true) :
    (∃ setup next, job.Runs s setup next) ∨ ∃ setup next holder, job.Locks s setup next holder := by
  obtain ⟨r, code⟩ := Option.isSome_iff_exists.mp code
  cases job with
  | define typeName bodies => exact Or.inl ⟨_, _, .define⟩
  | load path lines => exact Or.inl ⟨_, _, .load⟩
  | register unit => exact Or.inl ⟨_, _, .register code⟩
  | announce arrival => exact Or.inl ⟨_, _, .announce⟩
  | install arrival => exact Or.inl ⟨_, _, .install (List.Perm.refl _)⟩
  | notify targets =>
    cases targets with
    | nil => exact Or.inl ⟨_, _, .notified⟩
    | cons target rest => exact Or.inr ⟨_, _, _, .notify⟩
  | add p =>
    refine Or.inr ?_
    rcases admitted : s.engine.probes.admission p with e | (_ | group | target)
    · exact ⟨_, _, _, .misplaced admitted⟩
    · exact ⟨_, _, _, .idle admitted⟩
    · exact ⟨_, _, _, .joins admitted⟩
    · exact ⟨_, _, _, .founds admitted⟩
  | keep named => exact Or.inr ⟨_, _, _, .keep (List.Perm.refl _)⟩
  | close => exact Or.inr ⟨_, _, _, .close⟩

theorem Orderly.quiet_or_proceeds (order : Orderly s) : s.Quiet ∨ ∃ s', Proceeds s s' := by
  cases held : s.holder with
  | some hold =>
    obtain ⟨setup, holder, part⟩ := Hold.exists_runs hold s.setup
    exact Or.inr ⟨_, .holds held part⟩
  | none =>
    obtain ⟨r, registers⟩ := order.connected.registered
    rcases Multiset.empty_or_exists_mem s.jobs with done | ⟨job, member⟩
    · exact Or.inl ⟨held, done⟩
    · obtain ⟨others, ready⟩ := Multiset.exists_cons_of_mem member
      have known : s.setup.engine.code.isSome = true := by rw [registers.code]; rfl
      rcases Job.exists_part job known with ⟨setup, next, part⟩ | ⟨setup, next, holder, part⟩
      · exact Or.inr ⟨_, .runs ready part⟩
      · exact Or.inr ⟨_, .locks ready held part⟩

/-- However what is under way goes on, there is a point where all threads are done. -/
inductive Rests : Traffic → Prop
  | quiet {s : Traffic} (done : s.Quiet) : Rests s
  | proceeds {s : Traffic} (able : ∃ s', Proceeds s s') (all : ∀ s', Proceeds s s' → Rests s') :
    Rests s

end Traffic
end LiveProbe
