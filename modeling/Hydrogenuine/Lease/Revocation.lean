import Hydrogenuine.Lease.Entries

/-!
# What a revocation does

`revoke_lease` applies its transition and then revokes every permit recorded
under the lease; `revoke_all` does so for every lease that is live when it is
called, and reaches all of them.
-/

namespace Hydrogenuine.Lease

open Support Hydrogenuine.Core Gpp

variable {env : LeaseEnv} {s t : LeaseWorld}

/-! ## Revoking the permits of a lease -/

/-- After a state `u`, only permits have been revoked: leases and records stay,
and the known permits of the lease are spent. -/
structure PermitsRevoked (u t : LeaseWorld) (leaseId : String) : Prop where
  leases : t.leases = u.leases
  spares : Spares u t
  uuids : u.uuids ≤ t.uuids
  spent : ∀ permitId ∈ u.minted leaseId, u.known permitId = true →
    t.spent permitId = true

theorem revokePermits_ends
    (nowWall reasonCode revokerRef : String) (ids : List String) :
    ∀ u : LeaseWorld,
      Ends (ids.forM fun permitId =>
          revokePermit env permitId nowWall reasonCode revokerRef) u
        (fun _ t => t.leases = u.leases ∧ Spares u t ∧ u.uuids ≤ t.uuids ∧
          ∀ permitId ∈ ids, u.known permitId = true → t.spent permitId = true)
        (fun _ _ => False) := by
  induction ids with
  | nil =>
      intro u
      refine ends_pure ⟨rfl, spares_of_store rfl rfl rfl, le_rfl, ?_⟩
      intro permitId hmem
      cases hmem
  | cons id ids ih =>
      intro u
      apply ends_bind
      apply ends_modify
      refine ends_mono (ih _) ?_ (fun _ _ h => h)
      rintro _ t ⟨hleases, hspares, huuids, hspent⟩
      have hfirst : PermitsKept u { u with
          gpp := (u.gpp.revoke env.host
            ⟨id, nowWall, reasonCode, revokerRef⟩).1 } :=
        permitsKept_of_revoke rfl
      refine ⟨hleases, ⟨hspares.minted, hspares.seen,
        hfirst.trans hspares.kept⟩, huuids, ?_⟩
      intro permitId hmem hknown
      rcases List.mem_cons.mp hmem with rfl | hmem
      · apply hspares.kept.spent
        have hok : (u.gpp.store.revoke env.host
            ⟨permitId, nowWall, reasonCode, revokerRef⟩).2 = true :=
          (PermitStore.revoke_ok_iff ..).mpr hknown
        have hrevoked := PermitStore.isRevoked_revoke env.host u.gpp.store
          ⟨permitId, nowWall, reasonCode, revokerRef⟩ permitId
        rw [hok, decide_eq_true rfl, Bool.and_true, Bool.or_true] at hrevoked
        exact Bool.or_eq_true_iff.mpr (Or.inl hrevoked)
      · exact hspent permitId hmem (hfirst.known permitId hknown)

theorem revokeLease_ends
    {leaseId revokerRef reasonCode : String} {Q : LeaseWorld → Prop}
    {E : PyError → LeaseWorld → Prop}
    (h : Ends (transition env leaseId .revoke reasonCode
      ("revoker=" ++ revokerRef)) s (fun _ u => Q u) E) :
    Ends (revokeLease env leaseId revokerRef reasonCode) s
      (fun _ t => ∃ u, Q u ∧ PermitsRevoked u t leaseId) E := by
  unfold revokeLease
  apply ends_bind
  refine ends_mono h ?_ (fun _ _ h => h)
  intro _ u hu
  apply ends_bind
  apply ends_readClock
  apply ends_bind
  apply ends_get
  apply ends_bind
  refine ends_mono (revokePermits_ends _ _ _ _ _) ?_ (fun _ _ h => h.elim)
  rintro _ v ⟨hleases, hspares, huuids, hspent⟩
  apply ends_bind
  apply ends_fileReceipt
  intro receipt
  refine ends_pure ⟨u, hu, hleases, ?_, Nat.le_succ_of_le huuids, ?_⟩
  · have hkept := hspares.kept
    exact ⟨hspares.minted, hspares.seen, hkept.revoked, hkept.consumed,
      hkept.unrevoked, hkept.known⟩
  · intro permitId hmem hknown
    exact hspent permitId hmem hknown

theorem revokeAllLoop_ends
    (revokerRef : String) (ids : List String) :
    ∀ s : LeaseWorld, s.Fresh env.host →
      (∀ id ∈ ids, ∃ lease, s.leases.get id = some lease ∧
        lease.state.isLive = true) → ids.Nodup →
      Ends (ids.forM fun leaseId =>
          revokeLease env leaseId revokerRef "lease.revoke_all") s
        (fun _ t => RevokedExactly ids s.leases.get t.leases.get ∧
          Spares s t ∧
          ∀ id ∈ ids, ∀ permitId ∈ s.minted id, s.known permitId = true →
            t.spent permitId = true)
        (fun _ _ => False) := by
  induction ids with
  | nil =>
      intro s _ _ _
      refine ends_pure ⟨fun leaseId => ⟨fun _ => rfl, fun hmem => ?_⟩,
        spares_of_store rfl rfl rfl, fun id hmem => ?_⟩
      · cases hmem
      · cases hmem
  | cons id ids ih =>
      intro s hs hfiled hnodup
      rw [List.nodup_cons] at hnodup
      obtain ⟨lease, hget, hlive⟩ := hfiled id List.mem_cons_self
      apply ends_bind
      refine ends_mono (revokeLease_ends (transition_moves hs hget
        (transitions_revoke hlive) _ _)) ?_ (fun _ _ h => h)
      rintro _ v ⟨u, ⟨honly, hu, eventId, hbook⟩, hrevoked⟩
      have hv : v.Fresh env.host := hu.mono (by rw [hrevoked.leases])
        hrevoked.uuids
      have hbookv : v.leases.get = Function.update s.leases.get id
          (some (lease.advance .revoked eventId)) := by
        rw [hrevoked.leases]
        exact hbook
      have hsparesv := honly.spares.trans hrevoked.spares
      have hminted (leaseId : String) : v.minted leaseId = s.minted leaseId := by
        rw [LeaseWorld.minted, LeaseWorld.minted, hsparesv.minted]
      refine ends_mono (ih v hv ?_ hnodup.2) ?_ (fun _ _ h => h)
      · intro other hother
        have hne : other ≠ id := by
          rintro rfl
          exact hnodup.1 hother
        rw [hbookv, Function.update_of_ne hne]
        exact hfiled other (List.mem_cons_of_mem _ hother)
      · rintro _ t ⟨hexactly, hspares, hspent⟩
        refine ⟨revokedExactly_cons hget hlive hbookv hnodup.1 hexactly,
          hsparesv.trans hspares, ?_⟩
        intro other hother permitId hmem hknown
        rcases List.mem_cons.mp hother with rfl | hother
        · apply hspares.kept.spent
          apply hrevoked.spent permitId
          · rw [LeaseWorld.minted, honly.spares.minted]
            exact hmem
          · exact honly.spares.kept.known permitId hknown
        · rw [← hminted] at hmem
          exact hspent other hother permitId hmem
            (hsparesv.kept.known permitId hknown)

/-- The ids that `revoke_all` walks through. -/
def liveIds (store : LeaseStore) : List String :=
  (store.all.filter fun lease => lease.state.isLive).map
    CapabilityLease.leaseId

theorem mem_liveIds_iff {store : LeaseStore} {leaseId : String} :
    leaseId ∈ liveIds store ↔ ∃ lease, store.get leaseId = some lease ∧
      lease.state.isLive = true := by
  rw [liveIds, List.mem_map]
  constructor
  · rintro ⟨lease, hmem, rfl⟩
    rw [List.mem_filter] at hmem
    exact ⟨lease, LeaseStore.mem_all_iff.mp hmem.1, hmem.2⟩
  · rintro ⟨lease, hget, hlive⟩
    obtain rfl := LeaseStore.leaseId_of_get hget
    exact ⟨lease, List.mem_filter.mpr ⟨LeaseStore.mem_all_iff.mpr hget, hlive⟩,
      rfl⟩

theorem revokeAll_ends (hs : s.Fresh env.host) (revokerRef : String) :
    Ends (revokeAll env revokerRef) s
      (fun _ t =>
        RevokedExactly (liveIds s.leases) s.leases.get t.leases.get ∧
        Spares s t ∧
        ∀ id ∈ liveIds s.leases, ∀ permitId ∈ s.minted id,
          s.known permitId = true → t.spent permitId = true)
      (fun _ _ => False) := by
  unfold revokeAll
  apply ends_bind
  apply ends_get
  apply ends_bind
  refine ends_mono (revokeAllLoop_ends revokerRef (liveIds s.leases) s hs ?_ ?_)
    ?_ (fun _ _ h => h)
  · intro id hid
    exact mem_liveIds_iff.mp hid
  · exact (nodup_leaseIds s.leases).sublist
      (List.filter_sublist.map CapabilityLease.leaseId)
  · intro _ t ht
    exact ends_pure ht

end Hydrogenuine.Lease
