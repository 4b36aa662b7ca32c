import Logion.Chain.FeeConservation
import Mathlib.Algebra.Ring.Int.Defs

/-!
# ReservedBalances — what an extrinsic reserves, and what its transactions show

The extractor nets the reserved and unreserved amounts by account, then gives the entry of the signer
to the `extrinsic` transaction, that of the payer of a value fee to the `valueFee` one, and each of
those that are left to a `reserve` transaction.

* `get_reservedMap`: the entry of an account is the difference of its events.
* `reservedTo_feeTransactions`: the transactions after the `extrinsic` one share out what is left.
* `reservedTo_balances`: for a transfer from a recovered account, the entry of the signer is shown on
  the recovered account; otherwise every account gets its own.
-/

namespace Logion

open Keyed Fallible

variable {e : JsonExtrinsic} {signer account : String} {index : ℕ}

/-! ### The map -/

namespace ReservedMap

variable {map : ReservedMap}

/-- A JavaScript object has one entry for a key. -/
def Distinct (map : ReservedMap) : Prop := (map.map Prod.fst).Nodup

/-- Adding to an entry keeps its key. -/
theorem key_add {a : String} {amount : ℤ} (entry : String × ℤ) (h : entry.1 = a) :
    (entry.1, entry.2 + amount).1 = a := h

theorem get_add (map : ReservedMap) (a account : String) (amount : ℤ) :
    (map.add a amount).get account = map.get account + if a = account then amount else 0 := by
  unfold add get
  split_ifs with hsome ha ha
  · subst ha
    rw [lookup_modifyFirst key_add, if_pos rfl]
    obtain ⟨entry, hentry⟩ := Option.isSome_iff_exists.mp hsome
    simp [hentry]
  · rw [lookup_modifyFirst key_add, if_neg (Ne.symm ha), Int.add_zero]
  · subst ha
    rw [lookup_append_singleton, Option.not_isSome_iff_eq_none.mp hsome]
    simp
  · rw [lookup_append_singleton, if_neg ha, Option.or_none, Int.add_zero]

theorem Distinct.add (hmap : map.Distinct) (a : String) (amount : ℤ) :
    (map.add a amount).Distinct := by
  unfold ReservedMap.add Distinct
  split_ifs with hsome
  · rwa [keys_modifyFirst key_add]
  · rw [lookup_isSome] at hsome
    rw [List.map_append, List.nodup_append_comm]
    exact List.nodup_cons.mpr ⟨hsome, hmap⟩

theorem Distinct.delete (hmap : map.Distinct) (a : String) : (map.delete a).Distinct := by
  unfold ReservedMap.delete Distinct
  rw [keys_eraseFirst]
  exact hmap.erase a

theorem get_delete (hmap : map.Distinct) (a account : String) :
    (map.delete a).get account = if account = a then 0 else map.get account := by
  unfold ReservedMap.delete get
  split_ifs with h
  · rw [h, lookup_eraseFirst_self hmap]
    rfl
  · rw [lookup_eraseFirst_ne h]

/-- What several events add to the entry of an account. -/
theorem get_foldl (sign : ℕ → ℤ) (data : List (String × ℕ)) (map : ReservedMap) (account : String) :
    (data.foldl (fun map d => map.add d.1 (sign d.2)) map).get account =
      map.get account + ((data.filter (·.1 = account)).map fun d => sign d.2).sum := by
  induction data generalizing map with
  | nil => simp
  | cons d data ih =>
    rw [List.foldl_cons, ih, get_add, List.filter_cons]
    by_cases h : d.1 = account
    · simp [h, Int.add_assoc]
    · simp [h]

theorem Distinct.foldl (sign : ℕ → ℤ) (data : List (String × ℕ)) (hmap : map.Distinct) :
    (data.foldl (fun map d => map.add d.1 (sign d.2)) map).Distinct := by
  induction data generalizing map with
  | nil => exact hmap
  | cons d data ih => exact ih (hmap.add d.1 (sign d.2))

end ReservedMap

/-- The sum of the amounts of the events of an account. -/
def amountOf (account : String) (data : List (String × ℕ)) : ℕ :=
  ((data.filter (·.1 = account)).map Prod.snd).sum

/-- The amounts of the `Reserved` events of an account, minus those of its `Unreserved` events. -/
def netReserved (e : JsonExtrinsic) (account : String) : ℤ :=
  amountOf account (findEventsData e JsonEvent.reserved?) -
    amountOf account (findEventsData e JsonEvent.unreserved?)

theorem sum_cast (data : List (String × ℕ)) :
    (data.map fun d => (d.2 : ℤ)).sum = ((data.map Prod.snd).sum : ℕ) := by
  induction data with
  | nil => rfl
  | cons d data ih => simp [ih]

theorem sum_neg_cast (data : List (String × ℕ)) :
    (data.map fun d => -(d.2 : ℤ)).sum = -((data.map Prod.snd).sum : ℕ) := by
  induction data with
  | nil => rfl
  | cons d data ih =>
    rw [List.map_cons, List.sum_cons, ih, List.map_cons, List.sum_cons]
    omega

theorem reservedMap_distinct (e : JsonExtrinsic) : (reservedMap e).Distinct :=
  ReservedMap.Distinct.foldl (fun amount => -amount) _
    (ReservedMap.Distinct.foldl (fun amount => amount) _ List.nodup_nil)

/-- **The entry of an account**: the difference of its events. -/
theorem get_reservedMap (e : JsonExtrinsic) (account : String) :
    (reservedMap e).get account = netReserved e account := by
  have hreserved := ReservedMap.get_foldl (fun amount => amount)
    (findEventsData e JsonEvent.reserved?) [] account
  have hunreserved := ReservedMap.get_foldl (fun amount => -amount)
    (findEventsData e JsonEvent.unreserved?) ((findEventsData e JsonEvent.reserved?).foldl
      (fun (map : ReservedMap) data => map.add data.1 data.2) []) account
  rw [sum_cast] at hreserved
  rw [sum_neg_cast, hreserved] at hunreserved
  refine hunreserved.trans ?_
  rw [show ReservedMap.get [] account = 0 from rfl, Int.zero_add]
  rfl

/-! ### The transactions -/

/-- The sum of the reserved amounts over the transactions from an account. -/
def reservedTo (account : String) (ts : List Transaction) : ℤ :=
  ((ts.filter (·.fromAddress = account)).map (·.reserved)).sum

@[simp] theorem reservedTo_nil : reservedTo account [] = 0 := rfl

theorem reservedTo_append (xs ys : List Transaction) :
    reservedTo account (xs ++ ys) = reservedTo account xs + reservedTo account ys := by
  simp [reservedTo]

theorem reservedTo_cons (t : Transaction) (ts : List Transaction) :
    reservedTo account (t :: ts) =
      (if t.fromAddress = account then t.reserved else 0) + reservedTo account ts := by
  unfold reservedTo
  rw [List.filter_cons]
  by_cases h : t.fromAddress = account <;> simp [h]

theorem reservedTo_eq_zero {ts : List Transaction} (h : ∀ t ∈ ts, t.reserved = 0) :
    reservedTo account ts = 0 := by
  induction ts with
  | nil => rfl
  | cons t ts ih =>
    rw [List.forall_mem_cons] at h
    rw [reservedTo_cons, h.1, ih h.2, ite_self, Int.add_zero]

/-- One transaction for each entry gives every account its own. -/
theorem reservedTo_map {map : ReservedMap} (hmap : map.Distinct)
    {toTransaction : String × ℤ → Transaction}
    (h : ∀ entry, (toTransaction entry).fromAddress = entry.1 ∧
      (toTransaction entry).reserved = entry.2) :
    reservedTo account (map.map toTransaction) = map.get account := by
  have hfilter : (map.map toTransaction).filter (·.fromAddress = account) =
      (map.filter fun entry => decide (entry.1 = account)).map toTransaction := by
    rw [List.filter_map]
    congr 1
    refine List.filter_congr fun entry _ => ?_
    simp [(h entry).1]
  rw [reservedTo, hfilter, filter_key hmap, ReservedMap.get]
  cases hentry : lookup Prod.fst account map with
  | none => rfl
  | some entry => simp [(h entry).2]

/-- **The transactions after the `extrinsic` one**: every account gets its entry. -/
theorem reservedTo_feeTransactions {map : ReservedMap} (hmap : map.Distinct) :
    reservedTo account (feeTransactions e signer index map) = map.get account := by
  have hzero : ∀ {fee : Option Fee} {toTransaction : Fee → Transaction},
      (∀ f, (toTransaction f).reserved = 0) →
        reservedTo account (paidByOther signer fee toTransaction) = 0 := by
    refine fun hreserved => reservedTo_eq_zero fun t ht => ?_
    obtain ⟨f, rfl⟩ := paidByOther_mem ht
    exact hreserved f
  -- Only the transaction of the value fee and those of the entries that are left reserve anything.
  have hrest : ∀ value item tokens reserve : ℤ, item = 0 → tokens = 0 →
      value + reserve = map.get account → 0 + 0 + 0 + value + item + tokens + reserve =
        map.get account := by omega
  unfold feeTransactions
  simp only [reservedTo_append]
  rw [hzero fun _ => rfl, hzero fun _ => rfl, hzero fun _ => rfl]
  refine hrest _ _ _ _ (reservedTo_eq_zero fun t ht => ?_) (reservedTo_eq_zero fun t ht => ?_) ?_
  · split at ht
    · split_ifs at ht
      · rw [List.mem_singleton.mp ht]
      · cases ht
    · cases ht
  · split at ht
    · rcases List.mem_cons.mp ht with rfl | ht
      · rfl
      · rw [List.mem_singleton.mp ht]
    · cases ht
  · rcases hvalue : e.valueFee with _ | fee
    · dsimp only [paidByOther]
      rw [reservedTo_nil, Int.zero_add]
      exact reservedTo_map hmap fun _ => ⟨rfl, rfl⟩
    · by_cases hpayer : fee.withdrawnFrom = signer
      · simp only [paidByOther, ne_eq, hpayer, not_true_eq_false, if_false]
        rw [reservedTo_nil, Int.zero_add]
        exact reservedTo_map hmap fun _ => ⟨rfl, rfl⟩
      · simp only [paidByOther, ne_eq, hpayer, not_false_eq_true, if_true]
        rw [reservedTo_map (hmap.delete fee.withdrawnFrom) fun _ => ⟨rfl, rfl⟩,
          ReservedMap.get_delete hmap, reservedTo_cons, reservedTo_nil, Int.add_zero]
        by_cases haccount : account = fee.withdrawnFrom
        · simp [haccount]
        · simp [haccount, Ne.symm haccount]

/-- Only a transfer from a recovered account comes from another account than its signer. -/
theorem recoveredAccount_eq_none (h : determineType e ≠ .transferFromRecovered) :
    e.call.recoveredAccount = none := by
  unfold determineType at h
  cases hcall : e.call with
  | asRecovered account call =>
    rw [hcall] at h
    have hbalances : call.isBalances = false := by
      by_contra hb
      simp [hb] at h
    rcases account with _ | account | _ <;> simp [Call.recoveredAccount, hbalances]
  | _ => rfl

section

variable [Vault]

theorem reservedTo_vaultTransactions {otherSignatories : List String} {call : Call}
    {ts : List Transaction} (h : vaultTransactions e signer index otherSignatories call = .ok ts) :
    reservedTo account ts = 0 := by
  obtain ⟨error, -, h⟩ := bind_eq_ok.mp h
  split_ifs at h
  · obtain ⟨toAddress, -, h⟩ := bind_eq_ok.mp h
    cases h
    simp [reservedTo_cons]
  · cases h
    rfl

variable (account) in
/-- **What the transactions of an extrinsic show as reserved**: every account its own balance, but the
recovered account that of the signer. -/
theorem reservedTo_extractTransactions {ts : List Transaction}
    (h : extractTransactions e signer index = .ok ts) :
    reservedTo account ts = (if account = signer then 0 else netReserved e account) +
      if account = e.call.recoveredAccount.getD signer then netReserved e signer else 0 := by
  obtain ⟨parties, hparties, h⟩ := bind_eq_ok.mp h
  obtain ⟨vault, hvault, h⟩ := bind_eq_ok.mp h
  obtain ⟨error, -, h⟩ := bind_eq_ok.mp h
  cases h
  have hzero : reservedTo account vault = 0 := by
    split at hvault
    · exact reservedTo_vaultTransactions hvault
    · cases hvault
      rfl
  rw [reservedTo_append, hzero, Int.zero_add, reservedTo_cons,
    reservedTo_feeTransactions ((reservedMap_distinct e).delete signer),
    ReservedMap.get_delete (reservedMap_distinct e), get_reservedMap, get_reservedMap,
    transferParties_from hparties, Int.add_comm]
  simp only [eq_comm (a := account)]

/-- **Reserved balances balance out**: for an extrinsic that is no transfer from a recovered account,
what its transactions reserve for an account is what its events reserve minus what they unreserve. -/
theorem reservedTo_balances (htype : determineType e ≠ .transferFromRecovered)
    {ts : List Transaction} (h : extractTransactions e signer index = .ok ts) (account : String) :
    reservedTo account ts = amountOf account (findEventsData e JsonEvent.reserved?) -
      amountOf account (findEventsData e JsonEvent.unreserved?) := by
  rw [reservedTo_extractTransactions account h, recoveredAccount_eq_none htype]
  change _ = netReserved e account
  by_cases haccount : account = signer
  · simp [haccount]
  · simp [haccount]

end

/-- `alice` signs, `bob` pays a value fee; both have balances reserved, `bob` and `carol` unreserved. -/
def reservingExtrinsic : JsonExtrinsic where
  call := .other "logionLoc" "addFile"
  signer := some "alice"
  valueFee := some ⟨3, "bob"⟩
  events := [.reserved "alice" 10, .reserved "bob" 4, .unreserved "bob" 6, .unreserved "carol" 1]

theorem reservedTo_balances_bob :
    (@extractTransactions noVault reservingExtrinsic "alice" 1).toOption.map (reservedTo "bob") =
      some (4 - 6) := by
  have h : @extractTransactions noVault reservingExtrinsic "alice" 1 = .ok _ := rfl
  rw [h]
  exact congrArg some (@reservedTo_balances _ _ _ noVault (by decide) _ h "bob")

end Logion
