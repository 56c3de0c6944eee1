import StarkBallot.AwsAdapters.SessionTtl
import StarkBallot.AwsAdapters.TableSafety

/-! What the calls of a session know when they write. One lemma a call: whatever invariant the tables
    keep, the call issues nothing but its own transaction, and what that is made of has been read before
    (`AuthorityRead`): the voting record was in the table at some time, and the votes were those of its
    history, each once. -/

namespace StarkBallot.AwsAdapters.Dynamo
open Schemes ContractCore CryptoPrimitives Domain Application

variable {U ι : Type}

/-- What was found of a session's voting record and its votes. -/
structure AuthorityRead (sessionId : JsString) (authority : SessionTtlAuthority) (s : SharedTable ι U) :
    Prop where
  voting : ∃ raw, Seen s (.voting sessionId) raw ∧ parseVotingItem sessionId raw = some authority.voting
  votes : (authority.votes.map (·.voteIndex)).Perm
    (List.range authority.voting.record.bulletinRootHistory.length)

theorem AuthorityRead.later {sessionId : JsString} {authority : SessionTtlAuthority}
    {s s' : SharedTable ι U} (h : AuthorityRead sessionId authority s) (hgrows : Grows s s') :
    AuthorityRead sessionId authority s' := by
  obtain ⟨raw, hseen, hparse⟩ := h.voting
  exact ⟨⟨raw, hseen.later hgrows, hparse⟩, h.votes⟩

/-- Every part of what was found was in the tables at some time. -/
structure AuthoritySeen (sessionId : JsString) (authority : SessionTtlAuthority) (s : SharedTable ι U) :
    Prop extends AuthorityRead sessionId authority s where
  identity :
    ∃ raw, Seen s (.identity sessionId) raw ∧ parseIdentityItem sessionId raw = some authority.identity
  items : ∀ vote ∈ authority.votes, ∃ own, Seen s (.vote sessionId vote.voteIndex) ⟨vote, own⟩

theorem AuthoritySeen.later {sessionId : JsString} {authority : SessionTtlAuthority}
    {s s' : SharedTable ι U} (h : AuthoritySeen sessionId authority s) (hgrows : Grows s s') :
    AuthoritySeen sessionId authority s' := by
  obtain ⟨raw, hseen, hparse⟩ := h.identity
  refine ⟨h.toAuthorityRead.later hgrows, ⟨raw, hseen.later hgrows, hparse⟩, ?_⟩
  intro vote hvote
  obtain ⟨own, hvoteSeen⟩ := h.items vote hvote
  exact ⟨own, hvoteSeen.later hgrows⟩

/-- The votes that a query may give are in the table. -/
theorem lookup_of_mem_votesAfter {table : AList (Item U)} {sessionId : JsString} {start : Option ℕ}
    {vote : VoteItem} (h : vote ∈ votesAfter table sessionId start) :
    ∃ own, table.lookup (.vote sessionId vote.voteIndex) = some ⟨vote, own⟩ := by
  rw [votesAfter, List.mem_mergeSort] at h
  obtain ⟨⟨key, item⟩, hentry, hvote⟩ := List.mem_filterMap.mp (List.mem_filter.mp h).1
  cases key with
  | vote owner index =>
    obtain ⟨item, hsession, hindex⟩ := item
    obtain ⟨rfl, hsame⟩ := Option.ite_none_right_eq_some.mp hvote
    obtain rfl : item = vote := Option.some.inj hsame
    subst hindex
    exact ⟨⟨hsession, rfl⟩, AList.mem_lookup_iff.mpr hentry⟩
  | _ => cases hvote

/-- Numbers below `n` that are as many as that, each once, are all of them. -/
theorem perm_range_of_nodup {numbers : List ℕ} {n : ℕ} (hnodup : numbers.Nodup)
    (hlength : numbers.length = n) (hbound : ∀ i ∈ numbers, i < n) : numbers.Perm (List.range n) := by
  refine (List.subperm_of_subset hnodup ?_).perm_of_length_le (by rw [List.length_range, hlength])
  intro i hi
  exact List.mem_range.mpr (hbound i hi)

variable [DecidableEq ι] {guard : Guard ι U} {issued : Issued ι U} {inv : SharedTable ι U → Prop}
  {s : SharedTable ι U} {c : ι} (h : Keeps guard issued inv)

/-! ### Reading -/

section Reading

include h

theorem safe_getSessionIdentity (sessionId : JsString) :
    CallSafe guard inv c (fun _ _ => True) (getSessionIdentity sessionId) s :=
  safe_weaken (fun _ _ _ => trivial) (safe_readActive h _ _ _)

theorem safe_requireIdentity (sessionId : JsString) :
    CallSafe guard inv c (fun _ _ => True) (requireIdentity sessionId) s := by
  refine safe_seq (safe_getSessionIdentity h sessionId) ?_
  rintro (_ | identity) s' -
  · exact safe_throw
  · exact safe_pure trivial

theorem safe_liveExpiresAt (config : StoreConfig) :
    CallSafe guard inv c (fun _ _ => True) (liveExpiresAt config) s :=
  safe_seq (safe_now h) fun _ _ _ => safe_pure trivial

theorem safe_artifactExpiresAt (config : StoreConfig) :
    CallSafe guard inv c (fun _ s' => Reads c [] s s') (artifactExpiresAt config) s :=
  safe_seq (safe_now h) fun _ _ hnow => safe_pure hnow.2

theorem safe_loadVotingItem (sessionId : JsString) :
    CallSafe guard inv c (fun voting s' => ∃ raw, Seen s' (.voting sessionId) raw ∧
      parseVotingItem sessionId raw = some voting) (loadVotingItem sessionId) s := by
  refine safe_seq (safe_readActive h (.voting sessionId) _ _) ?_
  rintro (_ | voting) s' ⟨hfound, -⟩
  · exact safe_throw
  · obtain ⟨raw, hread, hparse⟩ := hfound voting rfl
    exact safe_pure ⟨raw, hread.seen, hparse⟩

/-- The votes of a page, or of several. -/
def VotesSeen (sessionId : JsString) (votes : List VoteItem) (s : SharedTable ι U) : Prop :=
  ∀ vote ∈ votes, ∃ own, Seen s (.vote sessionId vote.voteIndex) ⟨vote, own⟩

omit [DecidableEq ι] h in
theorem VotesSeen.later {sessionId : JsString} {votes : List VoteItem} {s s' : SharedTable ι U}
    (h : VotesSeen sessionId votes s) (hgrows : Grows s s') : VotesSeen sessionId votes s' := by
  intro vote hvote
  obtain ⟨own, hseen⟩ := h vote hvote
  exact ⟨own, hseen.later hgrows⟩

theorem safe_queryVotes (sessionId : JsString) (start : Option ℕ) :
    CallSafe guard inv c (fun page s' => VotesSeen sessionId page.items s')
      (queryVotes sessionId start) s := by
  have hask :
      CallSafe guard inv c (fun answer s' => ∀ page, answer = .ok page →
        VotesSeen sessionId page.items s')
      (ask (TableRequest.queryVotes sessionId start)) s := by
    refine safe_ask h (by rintro operation items ⟨⟩) ?_
    rintro s' choice - page hpage vote hvote
    by_cases hfate : choice.fate = .served
    · simp only [serve, serveNow, if_pos hfate] at hpage
      rw [← Except.ok.inj hpage] at hvote
      obtain ⟨own, hlookup⟩ := lookup_of_mem_votesAfter (List.mem_of_mem_take hvote)
      exact ⟨own, seen_of_lookup hlookup⟩
    · simp only [serve, serveNow, if_neg hfate] at hpage
      cases hpage
  refine safe_seq hask ?_
  rintro (e | page) s' hanswer
  · exact safe_throw
  · exact safe_pure (hanswer page rfl)

theorem safe_loadVotePage (sessionId : JsString) (start : Option ℕ) :
    CallSafe guard inv c (fun page s' => VotesSeen sessionId page.items s')
      (loadVotePage sessionId start) s := by
  refine safe_seq (safe_queryVotes h sessionId start) ?_
  intro page s₁ hpage
  refine safe_seq (safe_grows (safe_now h)) ?_
  rintro nowMs s₂ ⟨-, hgrows⟩
  split
  · exact safe_throw
  · exact safe_pure (hpage.later hgrows)

theorem safe_loadVotePages (sessionId : JsString) (pages : ℕ) (start : Option ℕ) :
    CallSafe guard inv c (VotesSeen sessionId) (loadVotePages sessionId pages start) s := by
  induction pages generalizing start s with
  | zero => exact safe_throw
  | succ pages ih =>
    refine safe_seq (safe_loadVotePage h sessionId start) ?_
    rintro ⟨items, _ | last⟩ s₁ hitems
    · exact safe_pure hitems
    · refine safe_seq (safe_grows (ih (some last))) ?_
      rintro more s₂ ⟨hmore, hgrows⟩
      refine safe_pure ?_
      intro vote hvote
      exact (List.mem_append.mp hvote).elim (hitems.later hgrows vote) (hmore vote)

theorem safe_loadVoteItems (config : StoreConfig) (sessionId : JsString) :
    CallSafe guard inv c (fun items s' => VotesSeen sessionId items s' ∧ (items.map (·.voteIndex)).Nodup)
      (loadVoteItems config sessionId) s := by
  refine safe_seq (safe_loadVotePages h sessionId config.maxPages none) ?_
  intro items s' hitems
  split
  · exact safe_throw
  · rename_i hnodup
    exact safe_pure ⟨hitems, not_not.mp hnodup⟩

theorem safe_loadSessionTtlAuthority (config : StoreConfig) (sessionId : JsString) :
    CallSafe guard inv c (AuthoritySeen sessionId) (loadSessionTtlAuthority config sessionId) s := by
  refine safe_seq (safe_readItem h (.identity sessionId)) ?_
  rintro (_ | _ | item) s₁ ⟨hidentity, -⟩
  · exact safe_throw
  · exact safe_throw
  · dsimp only
    split
    · exact safe_throw
    · rename_i identity hparseIdentity
      refine safe_seq (safe_grows (safe_loadVotingItem h sessionId)) ?_
      rintro voting s₂ ⟨⟨raw, hseen, hparse⟩, hgrows₁⟩
      refine safe_seq (safe_grows (safe_loadVoteItems h config sessionId)) ?_
      rintro votes s₃ ⟨⟨hvotes, hnodup⟩, hgrows₂⟩
      split
      · exact safe_throw
      · rename_i hcomplete
        simp only [ne_eq, not_or, not_not, Bool.not_eq_true, List.any_eq_false, decide_eq_true_eq,
          not_le] at hcomplete
        obtain ⟨hlength, hbound⟩ := hcomplete
        refine safe_seq (safe_grows (safe_liveExpiresAt h config)) ?_
        rintro liveExpiresAt s₄ ⟨-, hgrows₃⟩
        have hgrows := hgrows₂.trans hgrows₃
        refine safe_pure ⟨⟨⟨raw, hseen.later hgrows, hparse⟩, ?_⟩, ?_, hvotes.later hgrows₃⟩
        · refine perm_range_of_nodup hnodup (by rw [List.length_map, hlength]) ?_
          intro i hi
          obtain ⟨vote, hvote, rfl⟩ := List.mem_map.mp hi
          exact hbound vote hvote
        · exact ⟨item, hidentity.seen.later (hgrows₁.trans hgrows), hparseIdentity⟩

/-- The plan does not shorten what it read. -/
theorem safe_buildArtifactTtlUpdatePlan (config : StoreConfig) (sessionId : JsString)
    (requestedExpiresAt : ℕ) :
    CallSafe guard inv c (fun plan s' => AuthorityRead sessionId plan.authority s' ∧
        plan.authority.expiresAt ≤ plan.expiresAt)
      (buildArtifactTtlUpdatePlan config sessionId requestedExpiresAt) s := by
  refine safe_seq (safe_loadSessionTtlAuthority h config sessionId) ?_
  intro authority s' hauthority
  exact safe_pure ⟨hauthority.toAuthorityRead, Nat.le_max_right _ _⟩

theorem safe_loadFinalization (sessionId : JsString) :
    CallSafe guard inv c (fun _ _ => True) (loadFinalization sessionId) s := by
  refine safe_seq (safe_getSessionIdentity h sessionId) ?_
  rintro (_ | identity) s₁ -
  · exact safe_pure trivial
  · refine safe_seq (safe_readItem h (.currentFinalization sessionId)) ?_
    rintro (_ | _ | rawPointer) s₂ -
    · exact safe_pure trivial
    · exact safe_pure trivial
    · dsimp only
      split
      · exact safe_pure trivial
      · rename_i pointer _
        refine safe_seq (safe_readItem h (.finalization sessionId pointer.currentFinalizationId)) ?_
        rintro (_ | _ | rawRecord) s₃ -
        · exact safe_pure trivial
        · exact safe_pure trivial
        · dsimp only
          split
          · exact safe_pure trivial
          · split
            · exact safe_pure trivial
            · exact safe_pure trivial

/-- The catch-all of a load. -/
theorem safe_loadFinalizationLifecycle (sessionId : JsString) :
    Safe (serveGuarded guard) inv Later c (fun _ _ => True) (loadFinalizationLifecycle sessionId) s := by
  refine safe_bind (safe_program (safe_loadFinalization h sessionId)) ?_
  rintro (e | result) s' -
  · trivial
  · trivial

omit h in
theorem safe_lift {α : Type} {post : α → SharedTable ι U → Prop}
    {p : Async (TableRequest U) TableRequest.Answer α}
    (hp : Safe (serveGuarded guard) inv Later c post p s) :
    CallSafe guard inv c post (ExceptT.lift p) s := by
  refine safe_bind hp ?_
  rintro a s' hpost _ ⟨⟩
  exact hpost

theorem safe_getCurrentFinalizationRecord (sessionId : JsString) :
    CallSafe guard inv c (fun _ _ => True) (getCurrentFinalizationRecord sessionId) s := by
  refine safe_seq (safe_lift (safe_loadFinalizationLifecycle h sessionId)) ?_
  rintro (_ | lifecycle | _ | _) s' -
  · exact safe_pure trivial
  · exact safe_pure trivial
  · exact safe_throw
  · exact safe_throw

end Reading

/-! ### Writing -/

/-- The next voting record is what the policy made of the record restored from what was read. -/
def NextVotingFrom (config : StoreConfig) (authority : SessionTtlAuthority)
    (next : SessionVotingRecord) : Prop :=
  ∃ (finalization : Option (FinalizationRecord U)) (boardClock : ℕ → Num) (voting : SessionVotingRecord)
    (command : SessionVoteCommand) (dependencies : SessionMutationDependencies)
    (mutation : SessionVoteMutation),
        restoreVotingRecord config.noble config.sha256 config.cipher authority.identity.identity
          authority.voting.record authority.votes boardClock = .ok voting ∧
      evaluateStoredVoteCommand config ⟨authority, voting, finalization⟩ command dependencies = .ok
        (.ok mutation) ∧
      nextVotingOf mutation = some next

section Writing

variable (config : StoreConfig) (sessionId : JsString)

include h

theorem safe_touchSession
    (hissued : ∀ authority lastActivityMs s, AuthorityRead sessionId authority s →
      issued c (.touch authority.liveExpiresAt) (touchItems sessionId authority lastActivityMs) s) :
    CallSafe guard inv c (fun _ _ => True) (touchSession config sessionId) s := by
  refine @safe_retrying _ _ _ _ _ _ _ _ (fun _ _ => True) _ _ (fun _ => True) ?_ _ trivial
  intro index s _
  refine safe_seq (safe_loadSessionTtlAuthority h config sessionId) ?_
  intro authority s₁ hauthority
  refine safe_seq (safe_grows (safe_now h)) ?_
  rintro nowMs s₂ ⟨-, hgrows⟩
  refine safe_seq (safe_catchConflict ?_) ?_
  · refine safe_weaken (fun _ _ _ => trivial) (safe_writeTransaction h ?_)
    exact hissued authority nowMs s₂ (hauthority.toAuthorityRead.later hgrows)
  · intro written s₃ _
    exact safe_pure ⟨trivial, fun _ _ => trivial⟩

theorem safe_touchSessionAfterCommit
    (hissued : ∀ authority lastActivityMs s, AuthorityRead sessionId authority s →
      issued c (.touch authority.liveExpiresAt) (touchItems sessionId authority lastActivityMs) s) :
    CallSafe guard inv c (fun _ _ => True) (touchSessionAfterCommit config sessionId) s :=
  safe_seq (safe_attempt (safe_touchSession h config sessionId hissued)) fun _ _ _ => safe_pure trivial

/-- The transaction of an apply. -/
theorem safe_writeLifecycle {input : LifecycleMutation U EncodedLifecycleRevision}
    {expected : EncodedLifecycleRevision} {nextRecord : FinalizationRecord U}
    (hissued : ∀ stored plan s, AuthorityRead input.sessionId plan.authority s →
      plan.authority.expiresAt ≤ plan.expiresAt →
      issued c .lifecycle (lifecycleItems input.sessionId expected input.finalizationId stored plan) s) :
    CallSafe guard inv c (fun _ _ => True) (writeLifecycle config input expected nextRecord) s := by
  refine safe_seq (safe_artifactExpiresAt h config) ?_
  intro requestedExpiresAt s₁ _
  refine safe_seq (safe_buildArtifactTtlUpdatePlan h config input.sessionId requestedExpiresAt) ?_
  rintro plan s₂ ⟨hauthority, hplan⟩
  split
  · exact safe_throw
  · rename_i stored _
    exact safe_weaken (fun _ _ _ => trivial)
      (safe_writeTransaction h (hissued stored plan s₂ hauthority hplan))

variable [DecidableEq U]

theorem safe_applyFinalizationLifecycleMutation (input : LifecycleMutation U EncodedLifecycleRevision)
    (hissued : ∀ expected stored plan s, AuthorityRead input.sessionId plan.authority s →
      plan.authority.expiresAt ≤ plan.expiresAt →
      issued c .lifecycle (lifecycleItems input.sessionId expected input.finalizationId stored plan) s) :
    Safe (serveGuarded guard) inv Later c (fun _ _ => True)
      (applyFinalizationLifecycleMutation config input) s := by
  unfold applyFinalizationLifecycleMutation
  split
  · trivial
  · rename_i expected nextRecord _
    refine safe_bind (safe_program (safe_writeLifecycle h config (hissued expected))) ?_
    rintro ((_ | _ | _ | e) | result) s' -
    · trivial
    · exact safe_bind (safe_loadFinalizationLifecycle h input.sessionId) fun _ _ _ => trivial
    · trivial
    · trivial
    · trivial

/-- What follows a load, if the loop that may follow is safe. -/
theorem safe_afterLoad {input : CoordinateFinalizationTransitionInput U} {staleConflicts : ℕ}
    {again : Option (Async (TableRequest U) TableRequest.Answer
      (FinalizationTransitionCoordinationResult U EncodedLifecycleRevision))}
    (hissued : ∀ expected stored plan s, AuthorityRead input.command.sessionId plan.authority s →
      plan.authority.expiresAt ≤ plan.expiresAt →
      issued c .lifecycle
        (lifecycleItems input.command.sessionId expected input.command.finalizationId stored plan) s)
    (hagain : ∀ program ∈ again, ∀ s, Safe (serveGuarded guard) inv Later c (fun _ _ => True) program s)
    (loadResult : FinalizationLifecycleLoadResult U EncodedLifecycleRevision) :
    Safe (serveGuarded guard) inv Later c (fun _ _ => True)
      (afterLoad (lifecyclePersistence config) input staleConflicts again loadResult) s := by
  cases loadResult with
  | missing => trivial
  | invalidRecord => trivial
  | persistenceFailure => trivial
  | loaded lifecycle =>
    simp only [afterLoad]
    split
    · trivial
    · trivial
    · trivial
    · refine safe_bind (safe_applyFinalizationLifecycleMutation h config _ hissued) ?_
      intro applyResult s' _
      cases applyResult with
      | stale current =>
        cases again with
        | none => trivial
        | some program => exact hagain program rfl s'
      | applied => trivial
      | alreadyApplied => trivial
      | missing => trivial
      | invalidRecord => trivial
      | persistenceFailure => trivial

/-- LOOP: by induction on the stale conflicts that are left. -/
theorem safe_coordinateFrom (input : CoordinateFinalizationTransitionInput U)
    (hissued : ∀ expected stored plan s, AuthorityRead input.command.sessionId plan.authority s →
      plan.authority.expiresAt ≤ plan.expiresAt →
      issued c .lifecycle
        (lifecycleItems input.command.sessionId expected input.command.finalizationId stored plan) s)
    (left : ℕ) (staleConflicts : ℕ) :
    Safe (serveGuarded guard) inv Later c (fun _ _ => True)
      (coordinateFrom (lifecyclePersistence config) input staleConflicts left) s := by
  induction left generalizing staleConflicts s with
  | zero =>
    refine safe_bind (safe_loadFinalizationLifecycle h _) ?_
    intro loadResult s' _
    exact safe_afterLoad h config hissued (by rintro _ ⟨⟩) loadResult
  | succ left ih =>
    refine safe_bind (safe_loadFinalizationLifecycle h _) ?_
    intro loadResult s' _
    refine safe_afterLoad h config hissued ?_ loadResult
    rintro _ ⟨⟩ s''
    exact ih _

theorem safe_applyFinalizationCommand (command : FinalizationTransitionCommand U)
    (hissued : ∀ expected stored plan s, AuthorityRead command.sessionId plan.authority s →
      plan.authority.expiresAt ≤ plan.expiresAt →
      issued c .lifecycle
        (lifecycleItems command.sessionId expected command.finalizationId stored plan) s) :
    CallSafe guard inv c (fun _ _ => True) (applyFinalizationCommand config command) s := by
  refine safe_seq (safe_now h) ?_
  intro evaluatedAtMs s₁ _
  refine safe_seq
    (safe_lift (safe_coordinateFrom h config ⟨command, .ofNat evaluatedAtMs, 2⟩ hissued _ _)) ?_
  intro coordination s₂ _
  unfold resolveCoordinatedRecord
  split
  all_goals first
    | exact safe_throw
    | split
      · exact safe_pure trivial
      · exact safe_throw

end Writing

/-! ### Votes -/

section Votes

variable (config : StoreConfig) (sessionId : JsString)

/-- What was restored, from what was read. -/
def MutationAuthorityRead (boardClock : ℕ → Num) (authority : VoteMutationAuthority U)
    (s : SharedTable ι U) : Prop :=
  AuthorityRead sessionId authority.ttl s ∧
    restoreVotingRecord config.noble config.sha256 config.cipher authority.ttl.identity.identity
      authority.ttl.voting.record authority.ttl.votes boardClock = .ok authority.voting

/-- What was restored, from what was in the tables. -/
structure MutationAuthoritySeen (boardClock : ℕ → Num) (authority : VoteMutationAuthority U)
    (s : SharedTable ι U) :
    Prop where
  seen : AuthoritySeen sessionId authority.ttl s
  restored : restoreVotingRecord config.noble config.sha256 config.cipher authority.ttl.identity.identity
    authority.ttl.voting.record authority.ttl.votes boardClock = .ok authority.voting

omit [DecidableEq ι] in
theorem MutationAuthoritySeen.read {boardClock : ℕ → Num} {authority : VoteMutationAuthority U}
    {s : SharedTable ι U} (h : MutationAuthoritySeen config sessionId boardClock authority s) :
    MutationAuthorityRead config sessionId boardClock authority s := ⟨h.seen.toAuthorityRead, h.restored⟩

include h

theorem safe_loadVoteMutationAuthority (boardClock : ℕ → Num) :
    CallSafe guard inv c (MutationAuthoritySeen config sessionId boardClock)
      (loadVoteMutationAuthority config sessionId boardClock) s := by
  refine safe_seq (safe_loadSessionTtlAuthority h config sessionId) ?_
  intro ttl s₁ hauthority
  have hrestore :
      CallSafe guard inv c (fun voting s' => s' = s₁ ∧ restoreVotingRecord config.noble config.sha256
      config.cipher ttl.identity.identity ttl.voting.record ttl.votes boardClock = .ok voting) (liftJs
        (restoreVotingRecord config.noble config.sha256 config.cipher ttl.identity.identity
          ttl.voting.record ttl.votes boardClock)) s₁ := safe_liftJs fun voting hvoting => ⟨rfl, hvoting⟩
  refine safe_seq hrestore ?_
  rintro voting _ ⟨rfl, hvoting⟩
  refine safe_seq (safe_grows (safe_getCurrentFinalizationRecord h sessionId)) ?_
  rintro finalization s₂ ⟨-, hgrows⟩
  exact safe_pure ⟨hauthority.later hgrows, hvoting⟩

theorem safe_findVoteMutationAuthority (boardClock : ℕ → Num) :
    CallSafe guard inv c (fun found s' => ∀ authority, found = some authority →
        MutationAuthoritySeen config sessionId boardClock authority s')
      (findVoteMutationAuthority config sessionId boardClock) s := by
  refine safe_seq (safe_attempt (safe_loadVoteMutationAuthority h config sessionId boardClock)) ?_
  rintro (e | authority) s' hauthority
  · cases e with
    | sessionNotFound => exact safe_pure (by rintro _ ⟨⟩)
    | conditionalConflict => exact safe_throw
    | failed => exact safe_throw
    | js e => exact safe_throw
  · refine safe_pure ?_
    rintro _ ⟨⟩
    exact hauthority authority rfl

variable {config sessionId}

theorem safe_writeVotes {authority : VoteMutationAuthority U} {nonces : ℕ → Nonces} {attemptIndex : ℕ}
    {mutation : SessionVoteMutation}
    (hissued : ∀ next, nextVotingOf mutation = some next →
      issued c .votes (voteMutationItems config sessionId authority.ttl nonces next) s) :
    CallSafe guard inv c (fun _ _ => True)
      (writeVotes config sessionId authority nonces attemptIndex mutation) s := by
  unfold writeVotes
  split
  · exact safe_pure trivial
  · rename_i next hnext
    refine safe_seq (safe_catchConflict ?_) ?_
    · exact safe_weaken (fun _ _ _ => trivial) (safe_writeTransaction h (hissued next hnext))
    · intro written s' _
      exact safe_pure trivial

theorem safe_mutateVotes (input : VoteMutationInput)
    (hissued : ∀ authority nonces next s, AuthorityRead sessionId authority s →
      NextVotingFrom (U := U) config authority next →
      issued c .votes (voteMutationItems config sessionId authority nonces next) s) :
    CallSafe guard inv c (fun _ _ => True) (mutateVotes config sessionId input) s := by
  refine @safe_retrying _ _ _ _ _ _ _ _ (fun _ _ => True) _ _ (fun _ => True) ?_ _ trivial
  intro index s _
  have hround :
      CallSafe guard inv c (fun _ _ => True) (mutateVotesRound config sessionId input index) s := by
    refine safe_seq (safe_findVoteMutationAuthority h config sessionId _) ?_
    rintro (_ | authority) s₁ hfound
    · exact safe_pure trivial
    · obtain ⟨hread, hrestore⟩ := (hfound authority rfl).read
      have hevaluate : CallSafe guard inv c (fun result s' => s' = s₁ ∧
          evaluateStoredVoteCommand config authority input.command
            (input.rounds index).dependencies = .ok result)
          (liftJs (evaluateStoredVoteCommand config authority input.command
            (input.rounds index).dependencies)) s₁ :=
        safe_liftJs fun result hresult => ⟨rfl, hresult⟩
      refine safe_seq hevaluate ?_
      rintro (e | mutation) _ ⟨rfl, hmutation⟩
      · exact safe_pure trivial
      · dsimp only
        split
        · exact safe_throw
        · refine safe_writeVotes h ?_
          intro next hnext
          exact hissued authority.ttl _ next _ hread ⟨authority.finalization, _, authority.voting,
            input.command, _, mutation, hrestore, hmutation, hnext⟩
  exact safe_weaken (fun _ _ _ => ⟨trivial, fun _ _ => trivial⟩) hround

end Votes

end StarkBallot.AwsAdapters.Dynamo
