import Logion.Sync.NeverStuck
import Logion.Sync.ProcessBlock

/-!
# Frames — what one extrinsic changes, and what it needs

* `keeps_updateLoc`, `keeps_updateAccountRecoveryRequests`, `keeps_locIds`: what the synchronizers keep.
* `addVote_ok`, `updateVote_ok`, `synchronize_votes`: everything that an accepted extrinsic does to the
  votes.
* `updateLoc_congr`, `not_completes_of_needsFee`: the part that the inclusion fee plays.
-/

namespace Logion

open Effect Fallible Keyed

/-! ### What the synchronizers keep -/

section

variable {γ : Type} {R : Database → γ} {e : JsonExtrinsic} {timestamp : Moment}

theorem keeps_mutateLoc {locId : UUID} {mutator : LocRequest → Except Err LocRequest}
    (hR : ∀ (db : Database) id loc', loc'.id = id → R (db.saveLoc id loc') = R db)
    (hid : ∀ loc loc', mutator loc = .ok loc' → loc'.id = loc.id) :
    Keeps (fun s : Store => R s.db) (mutateLoc locId mutator) := by
  refine keeps_transactional R fun db db' h => ?_
  cases hloc : db.findLoc locId with
  | none => rw [hloc] at h; cases h
  | some loc =>
    rw [hloc] at h
    obtain ⟨loc', hmut, h⟩ := bind_eq_ok.mp h
    cases h
    exact hR db locId loc' ((hid _ _ hmut).trans (findLoc_id hloc))

variable [LegalOfficers]

/-- What is read of the database without the columns that the LOC synchronizer writes. -/
theorem keeps_updateLoc
    (hloc : ∀ (db : Database) id loc', loc'.id = id → R (db.saveLoc id loc') = R db)
    (hitems : ∀ (db : Database) xs, R { db with collectionItems := xs } = R db)
    (hrecords : ∀ (db : Database) xs, R { db with tokensRecords := xs } = R db)
    (hselections : ∀ (db : Database) xs, R { db with issuerSelections := xs } = R db)
    (call : LocCall) : Keeps (fun s : Store => R s.db) (updateLoc e timestamp call) := by
  cases call with
  | create method locId items =>
    exact (keeps_liftExcept _).bind fun _ => keeps_mutateLoc hloc fun l l' h => openLoc_id h
  | addMetadata locId nameHash => exact keeps_mutateLoc hloc fun l l' h => updateMetadataItem_id h
  | addFile locId file => exact keeps_mutateLoc hloc fun l l' h => updateFile_id h
  | addLink locId target => exact keeps_mutateLoc hloc fun l l' h => updateLink_id h
  | close locId | closeAndSeal locId | makeVoid locId | makeVoidAndReplace locId =>
    refine keeps_mutateLoc hloc fun l l' h => ?_
    cases h
    rfl
  | acknowledgeFile locId key | acknowledgeMetadata locId key | acknowledgeLink locId key =>
    exact (keeps_liftExcept _).bind fun _ =>
      keeps_mutateLoc hloc fun l l' h => preAcknowledgeItem_id h
  | addCollectionItem | addCollectionItemWithTermsAndConditions =>
    refine (keeps_query _).bind fun loc => .ite (keeps_transactional R fun db db' h => ?_)
      (keeps_pure ())
    obtain ⟨item, -, h⟩ := bind_eq_ok.mp h
    obtain ⟨addedOn, -, h⟩ := bind_eq_ok.mp h
    cases h
    exact hitems db _
  | addTokensRecord =>
    refine (keeps_query _).bind fun loc => .ite (keeps_transactional R fun db db' h => ?_)
      (keeps_pure ())
    obtain ⟨record, -, h⟩ := bind_eq_ok.mp h
    obtain ⟨addedOn, -, h⟩ := bind_eq_ok.mp h
    cases h
    exact hrecords db _
  | nominateIssuer issuer | dismissIssuer issuer =>
    refine (keeps_liftExcept _).bind fun signer => .ite ?_ (keeps_pure ())
    refine (keeps_identityLoc _ _).bind fun _ => .ite (keeps_transactional R fun db db' h => ?_)
      (keeps_pure ())
    cases h
    exact hselections db _
  | setIssuerSelection locId issuer selected =>
    refine (keeps_liftExcept _).bind fun signer => .ite ?_ (keeps_pure ())
    refine (keeps_identityLoc _ _).bind fun loc => (keeps_query _).bind fun request =>
      (keeps_liftExcept _).bind fun _ => keeps_transactional R fun db db' h => ?_
    have h := Except.ok.inj h
    unfold Database.selectUnselect at h
    dsimp only at h
    split_ifs at h
    · cases h
      exact hselections db _
    · cases h
      exact hselections db _
  | unsynced method => exact keeps_pure ()
  | unknown method => exact keeps_throw _

omit [LegalOfficers] in
theorem keeps_unlessError {γ : Type} {R : Store → γ} {x : DbM Unit} (hx : Keeps R x) :
    Keeps R (unlessError e x) :=
  (keeps_liftExcept _).bind fun _ => .ite (keeps_pure ()) hx

theorem keeps_updateAccountRecoveryRequests
    (hrecoveries : ∀ (db : Database) xs, R { db with accountRecoveries := xs } = R db) :
    Keeps (fun s : Store => R s.db) (updateAccountRecoveryRequests e) := by
  unfold updateAccountRecoveryRequests
  split
  · refine keeps_unlessError ?_
    split
    · refine .forEach (fun legalOfficer => .ite ?_ (keeps_pure ())) _
      refine (keeps_liftExcept _).bind fun _ => (keeps_query _).bind fun requests =>
        .forEach (fun request => keeps_transactional R fun db db' h => ?_) requests
      obtain ⟨stored, -, h⟩ := bind_eq_ok.mp h
      cases h
      exact hrecoveries db _
    · exact keeps_pure ()
  · exact keeps_pure ()

/-- The LOC synchronizer keeps the votes and the ids of the LOCs. -/
theorem keeps_updateLocRequests : Keeps (fun s : Store => (s.db.votes, s.db.locRequests.map LocRequest.id))
    (updateLocRequests e timestamp) := by
  unfold updateLocRequests
  split
  · refine keeps_unlessError (keeps_updateLoc (R := fun db =>
      (db.votes, db.locRequests.map LocRequest.id)) ?_ (fun _ _ => rfl) (fun _ _ => rfl)
      (fun _ _ => rfl) _)
    intro db id loc' hid
    have hids : (modifyFirst LocRequest.id id (fun _ => loc'.stored) db.locRequests).map
        LocRequest.id = db.locRequests.map LocRequest.id := keys_modifyFirst fun _ _ => hid
    exact congrArg (fun ids => (db.votes, ids)) hids
  · exact keeps_pure ()

end

/-! ### Votes -/

section

variable {db : Database} {o : Option Database}

/-- The LOC of a vote. -/
def Database.votedLoc (db : Database) (voteId : String) : Option UUID :=
  (lookup Vote.voteId voteId db.votes).map Vote.locId

/-- The voter has a ballot in the vote. -/
def Database.HasBallot (db : Database) (voteId voter : String) : Prop :=
  ∃ vote, lookup Vote.voteId voteId db.votes = some vote ∧
    vote.ballots.any (fun ballot => ballot.voter = voter) = true

/-- What an accepted vote changes. -/
theorem addVote_ok {vote : Vote} (h : db.addVote vote = .ok o) : ∃ db', o = some db' ∧
    (∀ v ∈ db.votes, v.locId = vote.locId → v.voteId = vote.voteId) ∧
    (∀ voteId, db'.votedLoc voteId =
      if voteId = vote.voteId then some vote.locId else db.votedLoc voteId) ∧
    ∀ voteId voter, db.HasBallot voteId voter → db'.HasBallot voteId voter := by
  unfold Database.addVote at h
  split_ifs at h with hunique hknown
  · cases h
    have hlookup : ∀ voteId, lookup Vote.voteId voteId (modifyFirst Vote.voteId vote.voteId
        (fun v => { vote with ballots := v.ballots }) db.votes) = if voteId = vote.voteId then
          (lookup Vote.voteId voteId db.votes).map (fun v => { vote with ballots := v.ballots })
        else lookup Vote.voteId voteId db.votes :=
      fun voteId => lookup_modifyFirst fun _ _ => rfl
    refine ⟨_, rfl, by simpa using hunique, fun voteId => ?_, ?_⟩
    · unfold Database.votedLoc
      dsimp only
      rw [hlookup]
      split_ifs with hid
      · obtain ⟨v, hv⟩ := Option.isSome_iff_exists.mp hknown
        rw [hid, hv]
        rfl
      · rfl
    · rintro voteId voter ⟨v, hv, hballot⟩
      by_cases hid : voteId = vote.voteId
      · exact ⟨{ vote with ballots := v.ballots }, by dsimp only; rw [hlookup, if_pos hid, hv]; rfl,
          hballot⟩
      · exact ⟨v, by dsimp only; rw [hlookup, if_neg hid, hv], hballot⟩
  · cases h
    have hnone : lookup Vote.voteId vote.voteId db.votes = none :=
      Option.not_isSome_iff_eq_none.mp hknown
    refine ⟨_, rfl, by simpa using hunique, fun voteId => ?_, ?_⟩
    · unfold Database.votedLoc
      dsimp only
      rw [lookup_append_singleton]
      by_cases hid : voteId = vote.voteId
      · rw [if_pos hid, hid, hnone, if_pos rfl]
        rfl
      · rw [if_neg hid, if_neg (Ne.symm hid), Option.or_none]
    · rintro voteId voter ⟨v, hv, hballot⟩
      exact ⟨v, by dsimp only; rw [lookup_append_singleton, hv]; rfl, hballot⟩

/-- Closing a vote keeps its LOC and its ballots. -/
theorem Vote.close_ok {vote vote' : Vote} {approved : Bool} (h : vote.close approved = .ok vote') :
    vote'.locId = vote.locId ∧ vote'.voteId = vote.voteId ∧ vote'.ballots = vote.ballots := by
  unfold Vote.close at h
  by_cases hstatus : vote.status ≠ .pending
  · rw [if_pos hstatus] at h
    cases h
  · rw [if_neg hstatus] at h
    cases h
    exact ⟨rfl, rfl, rfl⟩

/-- What an accepted ballot changes. -/
theorem updateVote_ok {data : VoteUpdated} (h : db.updateVote data = .ok o) : ∃ db', o = some db' ∧
    ¬ db.HasBallot data.voteId data.voter ∧ db'.HasBallot data.voteId data.voter ∧
    (∀ voteId, db'.votedLoc voteId = db.votedLoc voteId) ∧
    ∀ voteId voter, db.HasBallot voteId voter → db'.HasBallot voteId voter := by
  obtain ⟨stored, hstored, h⟩ := bind_eq_ok.mp h
  obtain ⟨vote, hvote, h⟩ := bind_eq_ok.mp h
  have hstored := requireDefined_ok.mp hstored
  obtain ⟨hloc, hid, hballots⟩ : vote.locId = stored.locId ∧ vote.voteId = stored.voteId ∧
      vote.ballots = stored.ballots ++ [⟨data.voter, if data.votedYes then .yes else .no⟩] := by
    by_cases hclosed : data.closed = true
    · rw [if_pos hclosed] at hvote
      exact Vote.close_ok hvote
    · rw [if_neg hclosed] at hvote
      cases hvote
      exact ⟨rfl, rfl, rfl⟩
  split_ifs at h with hdup
  cases h
  have hlookup : ∀ voteId, lookup Vote.voteId voteId
      (modifyFirst Vote.voteId data.voteId (fun _ => vote) db.votes) = if voteId = data.voteId then
        (lookup Vote.voteId voteId db.votes).map (fun _ => vote)
      else lookup Vote.voteId voteId db.votes :=
    fun voteId => lookup_modifyFirst fun _ _ => hid.trans (lookup_key hstored)
  refine ⟨_, rfl, ?_, ⟨vote, ?_, ?_⟩, fun voteId => ?_, ?_⟩
  · rintro ⟨v, hv, hballot⟩
    rw [hstored] at hv
    cases hv
    exact hdup hballot
  · dsimp only
    rw [hlookup, if_pos rfl, hstored]
    rfl
  · rw [hballots]
    simp
  · unfold Database.votedLoc
    dsimp only
    rw [hlookup]
    split_ifs with hv
    · rw [hv, hstored]
      exact congrArg some hloc
    · rfl
  · rintro voteId voter ⟨v, hv, hballot⟩
    by_cases hvid : voteId = data.voteId
    · subst hvid
      rw [hstored] at hv
      cases hv
      refine ⟨vote, by dsimp only; rw [hlookup, if_pos rfl, hstored]; rfl, ?_⟩
      rw [hballots, List.any_append, hballot]
      rfl
    · exact ⟨v, by dsimp only; rw [hlookup, if_neg hvid, hv], hballot⟩

end

/-! ### One extrinsic -/

/-- A call for which the code needs a fee: a creation, or an item added to a LOC of the database. -/
def Call.NeedsFee (db : Database) : Call → Prop
  | .logionLoc (.create ..) => True
  | .logionLoc (.addMetadata locId _) | .logionLoc (.addFile locId _)
  | .logionLoc (.addLink locId _) => (db.findLoc locId).isSome
  | _ => False

section

variable [LegalOfficers] {e e' : JsonExtrinsic} {timestamp : Moment} {s s' : Store}

omit [LegalOfficers] in
theorem unlessError_success (he : e.error = .ok none) (x : DbM Unit) : unlessError e x = x := by
  rw [unlessError, he]
  rfl

theorem synchronize_logionLoc {call : LocCall} (he : e.error = .ok none)
    (hcall : e.call = .logionLoc call) : synchronize timestamp e = updateLoc e timestamp call := by
  rw [synchronize, updateLocRequests, updateAccountRecoveryRequests, updateVotes, hcall]
  dsimp only
  rw [unlessError_success he]
  simp only [pure_bind, bind_pure_unit]

/-- `updateVotes` on a successful extrinsic. -/
def handleVote (e : JsonExtrinsic) (timestamp : Moment) : VoteCall → DbM Unit
  | .createVoteForAllLegalOfficers locId => addVote e locId timestamp
  | .vote => updateVote e
  | .other _ => pure ()

theorem synchronize_vote {call : VoteCall} (he : e.error = .ok none) (hcall : e.call = .vote call) :
    synchronize timestamp e = handleVote e timestamp call := by
  rw [synchronize, updateLocRequests, updateAccountRecoveryRequests, updateVotes, hcall]
  dsimp only
  rw [unlessError_success he]
  rfl

theorem synchronize_other (hloc : ∀ call, e.call ≠ .logionLoc call)
    (hvote : ∀ call, e.call ≠ .vote call) :
    synchronize timestamp e = updateAccountRecoveryRequests e := by
  have h1 : updateLocRequests e timestamp = pure () := by
    unfold updateLocRequests
    split
    · rename_i call hcall
      exact absurd hcall (hloc call)
    · rfl
  have h2 : updateVotes e timestamp = pure () := by
    unfold updateVotes
    split
    · rename_i call hcall
      exact absurd hcall (hvote call)
    · rfl
  rw [synchronize, h1, h2]
  simp only [pure_bind, bind_pure_unit]

/-- **What an accepted extrinsic does to the votes.** -/
theorem synchronize_votes (he : e.error = .ok none)
    (h : exec (synchronize timestamp e) s = (.ok (), s')) :
    (∃ locId voteId, e.call = .vote (.createVoteForAllLegalOfficers locId) ∧
      extractVoteId e = .ok voteId ∧
      s.db.addVote { voteId := voteId, locId := locId, createdOn := timestamp } = .ok (some s'.db)) ∨
    (∃ data, e.call = .vote .vote ∧
      (findEventsData e JsonEvent.voteUpdated?).head? = some (some data) ∧
      s.db.updateVote data = .ok (some s'.db)) ∨
    ((∀ locId, e.call ≠ .vote (.createVoteForAllLegalOfficers locId)) ∧ e.call ≠ .vote .vote ∧
      s'.db.votes = s.db.votes) := by
  cases hcall : e.call with
  | logionLoc call =>
    have hkeeps : (fun s : Store => (s.db.votes, s.db.locRequests.map LocRequest.id))
        (exec (updateLocRequests e timestamp) s).2 =
        (s.db.votes, s.db.locRequests.map LocRequest.id) := keeps_updateLocRequests s
    rw [updateLocRequests, hcall] at hkeeps
    dsimp only at hkeeps
    rw [unlessError_success he, ← synchronize_logionLoc he hcall, h] at hkeeps
    exact .inr (.inr ⟨by simp, by simp, (Prod.mk.inj hkeeps).1⟩)
  | vote call =>
    rw [synchronize_vote he hcall] at h
    cases call with
    | createVoteForAllLegalOfficers locId =>
      obtain ⟨voteId, s₁, h1, h2⟩ := exec_bind_eq_ok h
      cases hid : extractVoteId e with
      | error err =>
        rw [hid] at h1
        cases h1
      | ok createdId =>
        rw [hid] at h1
        cases h1
        rcases transactional_ok h2 with ⟨hnone, -⟩ | ⟨db, hsome, rfl⟩
        · obtain ⟨_, hdb, -⟩ := addVote_ok hnone
          cases hdb
        · exact .inl ⟨locId, _, rfl, rfl, hsome⟩
    | vote =>
      rw [handleVote, updateVote] at h
      split at h
      · rename_i data hdata
        rcases transactional_ok h with ⟨hnone, -⟩ | ⟨db, hsome, rfl⟩
        · obtain ⟨_, hdb, -⟩ := updateVote_ok hnone
          cases hdb
        · exact .inr (.inl ⟨data, rfl, hdata, hsome⟩)
      · cases h
    | other method =>
      cases h
      exact .inr (.inr ⟨by simp, by simp, rfl⟩)
  | _ =>
    rw [synchronize_other (by simp [hcall]) (by simp [hcall])] at h
    have hkeeps := keeps_updateAccountRecoveryRequests (e := e) (R := fun db => db.votes)
      (fun _ _ => rfl) s
    rw [h] at hkeeps
    exact .inr (.inr ⟨by simp, by simp, hkeeps⟩)

/-- What an accepted extrinsic does to the LOCs of the votes. -/
theorem synchronize_votedLoc (he : e.error = .ok none)
    (h : exec (synchronize timestamp e) s = (.ok (), s')) :
    (∃ locId voteId, e.call = .vote (.createVoteForAllLegalOfficers locId) ∧
      extractVoteId e = .ok voteId ∧
      (∀ v ∈ s.db.votes, v.locId = locId → v.voteId = voteId) ∧
      ∀ v, s'.db.votedLoc v = if v = voteId then some locId else s.db.votedLoc v) ∨
    ((∀ locId, e.call ≠ .vote (.createVoteForAllLegalOfficers locId)) ∧
      ∀ v, s'.db.votedLoc v = s.db.votedLoc v) := by
  rcases synchronize_votes he h with ⟨locId, voteId, hcall, hid, hadd⟩ | ⟨data, hcall, -, hupdate⟩ |
    ⟨hcreate, -, hvotes⟩
  · obtain ⟨_, hdb, hunique, hloc, -⟩ := addVote_ok hadd
    cases hdb
    exact .inl ⟨locId, voteId, hcall, hid, hunique, hloc⟩
  · obtain ⟨_, hdb, -, -, hloc, -⟩ := updateVote_ok hupdate
    cases hdb
    exact .inr ⟨by simp [hcall], hloc⟩
  · refine .inr ⟨hcreate, fun v => ?_⟩
    rw [Database.votedLoc, hvotes]
    rfl

/-- The synchronizers keep the ids of the LOCs. -/
theorem keeps_locIds : Keeps (fun s : Store => s.db.locRequests.map LocRequest.id)
    (synchronize timestamp e) := by
  refine Keeps.bind ?_ fun _ => Keeps.bind ?_ fun _ => ?_
  · intro s
    exact (Prod.mk.inj (keeps_updateLocRequests s)).2
  · exact keeps_updateAccountRecoveryRequests (R := fun db => db.locRequests.map LocRequest.id)
      fun _ _ => rfl
  · unfold updateVotes
    split
    · refine keeps_unlessError ?_
      split
      · refine (keeps_liftExcept _).bind fun _ =>
          keeps_transactional (fun db => db.locRequests.map LocRequest.id) fun db db' h => ?_
        unfold Database.addVote at h
        split_ifs at h <;> cases h <;> rfl
      · unfold updateVote
        split
        · refine keeps_transactional (fun db => db.locRequests.map LocRequest.id) fun db db' h => ?_
          obtain ⟨stored, -, h⟩ := bind_eq_ok.mp h
          obtain ⟨vote, -, h⟩ := bind_eq_ok.mp h
          split_ifs at h
          cases h
          rfl
        · exact keeps_throw _
      · exact keeps_pure ()
    · exact keeps_pure ()

omit [LegalOfficers] in
theorem findLoc_isSome_congr {locId : UUID}
    (h : s'.db.locRequests.map LocRequest.id = s.db.locRequests.map LocRequest.id) :
    (s'.db.findLoc locId).isSome = (s.db.findLoc locId).isSome := by
  rw [Bool.eq_iff_iff]
  unfold Database.findLoc
  rw [lookup_isSome, lookup_isSome, h]

/-- A call whose fee is not needed does the same with and without one. -/
theorem updateLoc_congr {call : LocCall} (hsigner : e.signer = e'.signer)
    (hfee : ¬ (Call.logionLoc call).NeedsFee s.db) :
    exec (updateLoc e timestamp call) s = exec (updateLoc e' timestamp call) s := by
  have hunknown : ∀ locId (f g : LocRequest → Except Err LocRequest),
      ¬ (s.db.findLoc locId).isSome → exec (mutateLoc locId f) s = exec (mutateLoc locId g) s := by
    intro locId f g hnone
    have hnone := Option.not_isSome_iff_eq_none.mp hnone
    rw [mutateLoc, mutateLoc, exec_transactional_none (by rw [hnone]),
      exec_transactional_none (by rw [hnone])]
  cases call with
  | create method locId items => exact absurd trivial hfee
  | addMetadata locId nameHash => exact hunknown locId _ _ hfee
  | addFile locId file => exact hunknown locId _ _ hfee
  | addLink locId target => exact hunknown locId _ _ hfee
  | acknowledgeFile | acknowledgeMetadata | acknowledgeLink =>
    rw [updateLoc, updateLoc, confirmAcknowledgedItem, confirmAcknowledgedItem, hsigner]
  | nominateIssuer | dismissIssuer =>
    rw [updateLoc, updateLoc, notifyIssuerNominatedDismissed, notifyIssuerNominatedDismissed, hsigner]
  | setIssuerSelection =>
    rw [updateLoc, updateLoc, handleIssuerSelectedUnselected, handleIssuerSelectedUnselected, hsigner]
  | _ => rfl

/-- A call that needs a fee is refused without one. -/
theorem not_completes_of_needsFee (he : e.error = .ok none) (hnofee : e.partialFee = none)
    (h : e.call.NeedsFee s.db) : ¬ Completes (synchronize timestamp e) s := by
  cases hcall : e.call with
  | logionLoc call =>
    rw [hcall] at h
    rw [synchronize_logionLoc he hcall]
    cases call with
    | create method locId items =>
      rw [updateLoc, completes_handleLocCreation, hnofee]
      simp
    | addMetadata locId nameHash =>
      obtain ⟨loc, hloc⟩ := Option.isSome_iff_exists.mp h
      rw [updateLoc, completes_mutateLoc]
      intro hreturns
      have hfee := updateMetadataItem_returns.mp (hreturns loc hloc)
      rw [hnofee] at hfee
      cases hfee
    | addFile locId file =>
      obtain ⟨loc, hloc⟩ := Option.isSome_iff_exists.mp h
      rw [updateLoc, completes_mutateLoc]
      intro hreturns
      have hfee := (updateFile_returns.mp (hreturns loc hloc)).1
      rw [hnofee] at hfee
      cases hfee
    | addLink locId target =>
      obtain ⟨loc, hloc⟩ := Option.isSome_iff_exists.mp h
      rw [updateLoc, completes_mutateLoc]
      intro hreturns
      have hfee := updateLink_returns.mp (hreturns loc hloc)
      rw [hnofee] at hfee
      cases hfee
    | _ => cases h
  | _ =>
    rw [hcall] at h
    cases h

end

end Logion
