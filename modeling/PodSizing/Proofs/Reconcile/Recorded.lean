import PodSizing.Proofs.Reconcile.Served

/-!
# When a command is recorded

Resources are set before the status is, and between the two a reconcile may fail for good. The next one
finds the resources applied and only tells how they fare, so that the command is recorded just where its
own status has been stored or it is given again.
-/
namespace PodSizing.Reconcile
open Routing

/-- Whether a plan sets resources. -/
def Plan.isCommand : Plan → Bool
  | .command .. => true
  | .rest _ | .tell .. => false

theorem writing?_isCommand {config : ReconcileConfig} {p : Pod} {z : Writing}
    (h : (plan config p).writing? = some z) :
    z.status.scaleState.isCommand = (plan config p).isCommand ∧
      z.resources.isSome = (plan config p).isCommand := by
  cases hplan : plan config p with
  | rest result => simp [hplan, Plan.writing?] at h
  | tell u outcome =>
    rw [hplan] at h
    cases h
    exact ⟨plan_tell_isCommand hplan, rfl⟩
  | command name configs states direction state =>
    rw [hplan] at h
    cases h
    exact ⟨plan_command_isCommand hplan, rfl⟩

/-- The pod bears the stamp of a time that was told. -/
def Stamped (log : List Exchange) (p : Pod) : Prop :=
  ∃ now, .told now ∈ log ∧ p.lastCommanded = Time.stamp now

theorem Stamped.mono {log later : List Exchange} {p : Pod} (h : Stamped log p)
    (hlater : log <:+ later) : Stamped later p := by
  obtain ⟨now, htold, hstamp⟩ := h
  exact ⟨now, hlater.subset htold, hstamp⟩

theorem stamped_congr {log : List Exchange} {p q : Pod} (h : p.lastCommanded = q.lastCommanded) :
    Stamped log p ↔ Stamped log q := by
  simp only [Stamped, h]

/-- The server when a pod has been reconciled. -/
def served (w : World) (sync : CacheSync) (config : ReconcileConfig) (id : PodId) (s : Server) :
    Server :=
  (((reconcile config id).overApi sync).run (Server.handle w) s).2

theorem served_of_wp {w : World} {sync : CacheSync} {config : ReconcileConfig} {id : PodId}
    {P : Server → Prop} {s : Server}
    (h : ((reconcile config id).overApi sync).wp (Server.handle w) (fun _ t => P t) s) :
    P (served w sync config id s) := by
  obtain ⟨-, -, hend⟩ := (Program.wp_iff_run _ _ _ s).1 h
  exact hend

section Recorded
variable {w : World} {s t : Server} {config : ReconcileConfig} {id : PodId}

/-- While nobody else changes the pod, a reconcile stamps it just if it commands. -/
theorem served_stamped_iff {q : Pod} (h : s.Settled w id q) (hname : id.name.isEmpty = false)
    (sync : CacheSync) (ht : t = served w sync config id s) :
    ∃ q', t.pods id = some q' ∧
      (Stamped t.log q' ↔ Stamped t.log q ∨ (plan config q).isCommand = true) := by
  obtain ⟨hwritten, hnone⟩ := served_of_wp (reconcile_calm config h hname sync)
  rw [← ht] at hwritten hnone
  cases hwriting : (plan config q).writing? with
  | none =>
    have hquiet : (plan config q).isCommand = false := by
      cases hplan : plan config q with
      | rest result => rfl
      | tell u outcome => rfl
      | command name configs states direction state => simp [hplan, Plan.writing?] at hwriting
    refine ⟨q, (hnone hwriting).stored, ?_⟩
    simp [hquiet]
  | some z =>
    obtain ⟨now, q', htold, hstored, hq'⟩ := hwritten z hwriting
    obtain ⟨hstatus, -⟩ := writing?_isCommand hwriting
    have hstamp : q'.lastCommanded = z.status.scaleState.stampOver now q.lastCommanded := by
      rw [hq', Pod.lastCommanded_withVersion, Writing.lastCommanded_edited]
    refine ⟨q', hstored.stored, ?_⟩
    cases hcommand : (plan config q).isCommand with
    | true =>
      rw [ScaleState.stampOver, hstatus, hcommand, if_pos rfl] at hstamp
      exact iff_of_true ⟨now, htold, hstamp⟩ (.inr rfl)
    | false =>
      rw [ScaleState.stampOver, hstatus, hcommand] at hstamp
      simpa using stamped_congr hstamp

/-- What a reconcile that has set resources leaves of the pod: a pod that bears the stamp of the command
with the patch of the metadata, and the stamp from before with the patch of the resources. -/
theorem served_leaves (hs : s.Sound w) (hlog : s.log = []) (sync : CacheSync)
    (ht : t = served w sync config id s) {podId : PodId} {r : ResizePatch} {before after : Pod}
    (hresized : .patched podId (.resize r) before after ∈ t.log) :
    id.name.isEmpty = false ∧ t.Sound w ∧
      ∀ i patch p q, .patched i patch p q ∈ t.log →
        (∃ m, patch = .metadata m) ∧ Stamped t.log q ∨
          (∃ r, patch = .resize r) ∧ q.lastCommanded = p.lastCommanded := by
  have hend := served_of_wp (reconcile_going hs hlog config id sync)
  rw [← ht] at hend
  rcases hend with hnone | ⟨base, z, hname, hwriting, hgoing⟩
  · exact absurd hresized (hnone _ _ _ _)
  · obtain ⟨hstatus, hsets⟩ := writing?_isCommand hwriting
    have hcommand : (plan config base).isCommand = true := by
      obtain ⟨_, _, _, -, -, hstep⟩ := hgoing.leaves_of_mem hresized
      cases hstep with
      | resized htouches => exact hsets.symm.trans htouches
    refine ⟨hname, hgoing.sound, fun i patch p q hmem => ?_⟩
    obtain ⟨now, _, _, htold, -, hstep⟩ := hgoing.leaves_of_mem hmem
    cases hstep with
    | @resized r version htouches =>
      exact .inr ⟨⟨r, rfl⟩, z.lastCommanded_resized _⟩
    | @told m version next =>
      refine .inl ⟨⟨m, rfl⟩, now, htold, ?_⟩
      rw [Pod.lastCommanded_withVersion, Writing.lastCommanded_edited, ScaleState.stampOver,
        hstatus, hcommand, if_pos rfl]

def refusing (code : Nat) : World where
  version := tally
  fresh := tally_injective
  others _ := []
  verdict n := if n = 3 then .refuse (.refused code "Refused" "refused") else .answer
  renews _ := true
  clock n := ⟨1000 * n⟩
  cached _ := none

theorem refusing_calm (code : Nat) (id : PodId) {turn : Nat} (h : 4 ≤ turn) :
    (refusing code).CalmFrom id turn where
  answers n hn := if_neg (by omega)
  alone n _ c hc := by cases hc

def unreconciled (code : Nat) : Server := Server.holding (refusing code) (startedPod "3m" "1m")

def reconciledOnce (code : Nat) : Server :=
  served (refusing code) noWait { enabled := [.cpu] } ⟨"ns", "pod"⟩ (unreconciled code)

def reconciledTwice (code : Nat) : Server :=
  served (refusing code) noWait { enabled := [.cpu] } ⟨"ns", "pod"⟩ (reconciledOnce code)

theorem reconciledOnce_eq (code : Nat) :
    reconciledOnce code =
      served (refusing code) noWait { enabled := [.cpu] } ⟨"ns", "pod"⟩ (unreconciled code) := rfl

theorem reconciledTwice_eq (code : Nat) :
    reconciledTwice code =
      served (refusing code) noWait { enabled := [.cpu] } ⟨"ns", "pod"⟩ (reconciledOnce code) := rfl

theorem unreconciled_log (code : Nat) : (unreconciled code).log = [] := rfl

theorem unreconciled_sound (code : Nat) : (unreconciled code).Sound (refusing code) :=
  Server.store_sound (Server.empty_sound _) (by decide +kernel)

def setsAndLeaves (test : List Exchange → Pod → Bool) (s : Server) : Bool :=
  s.log.any (Exchange.isPatchOf (Patch.resizes fun _ _ => true)) && decide (4 ≤ s.turn) &&
    (s.pods ⟨"ns", "pod"⟩).any (test s.log)

theorem setsAndLeaves_eq_true (test : List Exchange → Pod → Bool)
    (h : setsAndLeaves test s = true) :
    (∃ podId r before after, .patched podId (.resize r) before after ∈ s.log) ∧ 4 ≤ s.turn ∧
      ∃ q, s.pods ⟨"ns", "pod"⟩ = some q ∧ test s.log q = true := by
  simp only [setsAndLeaves, Bool.and_eq_true, decide_eq_true_eq, Option.any_eq_true] at h
  obtain ⟨⟨hresized, hturn⟩, hleft⟩ := h
  obtain ⟨podId, r, before, after, hmem, -⟩ := exists_resize s.log _ hresized
  exact ⟨⟨podId, r, before, after, hmem⟩, hturn, hleft⟩

def leavesVersion (q : Pod) : Exchange → Bool
  | .patched _ (.metadata _) _ after => after.resourceVersion = q.resourceVersion
  | .patched _ (.resize _) _ _ | .told _ | .got .. => false

/-- A version belongs to one pod, so such a patch has left that pod. -/
theorem metadata_left (h : s.Sound w) {q : Pod} (hq : s.pods id = some q)
    (hleft : s.log.any (leavesVersion q) = true) :
    ∃ i m p, .patched i (.metadata m) p q ∈ s.log := by
  obtain ⟨e, hmem, hversion⟩ := List.any_eq_true.1 hleft
  cases e with
  | told now => cases hversion
  | got i p => cases hversion
  | patched i patch p after =>
    cases patch with
    | resize r => cases hversion
    | metadata m =>
      obtain ⟨-, hafter, -⟩ := h.honest _ hmem
      have hsame : after = q := h.identified after hafter q (h.stored id q hq).1
        (by simpa [leavesVersion] using hversion)
      exact ⟨i, m, p, hsame ▸ hmem⟩

/-- A reconcile has set resources, whatever has happened to its requests. When the pod that it has left
is reconciled again, with all requests answered and nobody else changing the pod, the pod bears the stamp
of a command given meanwhile just if it has been left with one, or is commanded again. It has been left
with one by a patch of the metadata, and not by one of the resources alone. -/
theorem resize_recorded_iff (hs : s.Sound w) (hlog : s.log = []) (sync : CacheSync)
    (ht : t = served w sync config id s) {podId : PodId} {r : ResizePatch} {before after : Pod}
    (hresized : .patched podId (.resize r) before after ∈ t.log) {q : Pod}
    (hq : t.pods id = some q) (hcalm : w.CalmFrom id t.turn) {t' : Server}
    (ht' : t' = served w sync config id t) :
    (∃ q', t'.pods id = some q' ∧
      (Stamped t'.log q' ↔ Stamped t'.log q ∨ (plan config q).isCommand = true)) ∧
    ∀ i patch p, .patched i patch p q ∈ t.log →
      (Stamped t'.log q ↔ (∃ m, patch = .metadata m) ∨ Stamped t'.log p) := by
  obtain ⟨hname, hsound, hleaves⟩ := served_leaves hs hlog sync ht hresized
  have hlater : t.log <:+ t'.log := ht' ▸ Server.run_log w _ t
  refine ⟨served_stamped_iff ⟨hsound, hq, hcalm⟩ hname sync ht', fun i patch p hmem => ?_⟩
  rcases hleaves i patch p q hmem with ⟨hmetadata, hstamped⟩ | ⟨⟨r, rfl⟩, hkept⟩
  · exact iff_of_true (hstamped.mono hlater) (.inl hmetadata)
  · simpa using stamped_congr hkept

/-- After a server error the next attempt stores the status, and the next reconcile keeps the stamp. -/
theorem status_afterServerError_recorded :
    ∃ q, (reconciledTwice 500).pods ⟨"ns", "pod"⟩ = some q ∧
      Stamped (reconciledTwice 500).log q := by
  obtain ⟨⟨podId, r, before, after, hresized⟩, hturn, q, hq, hleft⟩ :=
    setsAndLeaves_eq_true (s := reconciledOnce 500) (fun log q => log.any (leavesVersion q))
      (by decide +kernel)
  obtain ⟨-, hsound, -⟩ :=
    served_leaves (unreconciled_sound 500) (unreconciled_log 500) _ (reconciledOnce_eq 500) hresized
  obtain ⟨i, m, p, hpatched⟩ := metadata_left hsound hq hleft
  obtain ⟨⟨q', hq', hiff⟩, hstamps⟩ :=
    resize_recorded_iff (unreconciled_sound 500) (unreconciled_log 500) _ (reconciledOnce_eq 500)
      hresized hq (refusing_calm 500 _ hturn) (reconciledTwice_eq 500)
  have hstamped := (hstamps i (.metadata m) p hpatched).2 (.inl ⟨m, rfl⟩)
  exact ⟨q', hq', hiff.2 (.inl hstamped)⟩

/-- A status that is refused for good is not made up for: the pod is left without the stamp of a command,
and so it is by the next reconcile, with all requests answered and nobody else changing the pod. -/
theorem refused_status_unrecorded :
    (unreconciled 422).Sound (refusing 422) ∧ (unreconciled 422).log = [] ∧
      (∃ podId r before after,
        .patched podId (.resize r) before after ∈ (reconciledOnce 422).log) ∧
      (∃ q, (reconciledOnce 422).pods ⟨"ns", "pod"⟩ = some q ∧
        ¬ Stamped (reconciledOnce 422).log q) ∧
      (refusing 422).CalmFrom ⟨"ns", "pod"⟩ (reconciledOnce 422).turn ∧
      ∃ q, (reconciledTwice 422).pods ⟨"ns", "pod"⟩ = some q ∧
        ¬ Stamped (reconciledTwice 422).log q := by
  obtain ⟨⟨podId, r, before, after, hresized⟩, hturn, q, hq, hleft⟩ :=
    setsAndLeaves_eq_true (s := reconciledOnce 422) (fun _ q =>
      q.lastCommanded = "" && !(plan { enabled := [.cpu] } q).isCommand) (by decide +kernel)
  simp only [Bool.and_eq_true, decide_eq_true_eq, Bool.not_eq_true'] at hleft
  have hcalm := refusing_calm 422 ⟨"ns", "pod"⟩ hturn
  obtain ⟨hname, hsound, -⟩ :=
    served_leaves (unreconciled_sound 422) (unreconciled_log 422) _ (reconciledOnce_eq 422) hresized
  obtain ⟨q', hq', hiff⟩ :=
    served_stamped_iff ⟨hsound, hq, hcalm⟩ hname _ (reconciledTwice_eq 422)
  have hunstamped (log : List Exchange) : ¬ Stamped log q := by
    rintro ⟨now, -, hstamp⟩
    have hempty := Time.stamp_ne_empty now
    rw [← hstamp, hleft.1] at hempty
    cases hempty
  refine ⟨unreconciled_sound 422, unreconciled_log 422, ⟨podId, r, before, after, hresized⟩,
    ⟨q, hq, hunstamped _⟩, hcalm, q', hq', fun hstamped => ?_⟩
  -- the pod was left without a stamp, and is not commanded again
  rcases hiff.1 hstamped with hstamped | hcommand
  · exact hunstamped _ hstamped
  · rw [hleft.2] at hcommand
    cases hcommand

end Recorded
end PodSizing.Reconcile
