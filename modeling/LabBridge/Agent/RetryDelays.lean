import LabBridge.Agent.ReliableDelivery
import LabBridge.Library.Fallible

/-!
# The delays between attempts

The interval doubles with every attempt until it reaches the largest one. The configuration
bounds both intervals, so that no step of the computation leaves the 64 bits of a duration,
however many attempts there were.
-/

namespace LabBridge.Agent

open ByteText

/-! ## The delivery section of the configuration -/

/-- What the configuration reads of a YAML node: of a scalar whether it is an `int`. -/
inductive YamlNode
  | undefined
  | scalar (asInt : Option Int32)
  | map (fields : List (Bytes × YamlNode))
  | other

/-- The node of a field. -/
def YamlNode.field : YamlNode → Bytes → YamlNode
  | .map fields, name => (fields.lookup name).getD .undefined
  | _, _ => .undefined

/-- `parse_positive_integer`. -/
def parsePositiveInteger (value : YamlNode) (field path : Bytes) (maximum : ℕ) :
    Except Bytes ℕ :=
  match value with
  | .scalar (some result) =>
    if result.toInt ≤ 0 ∨ (maximum : ℤ) < result.toInt then
      .error (path ++ text "." ++ field ++ text " must be between 1 and " ++ decimal maximum)
    else .ok result.toInt.toNat
  | _ => .error (path ++ text "." ++ field ++ text " must be an integer")

/-- `required_positive_integer`. -/
def requiredPositiveInteger (object : YamlNode) (field path : Bytes) (maximum : ℕ) :
    Except Bytes ℕ :=
  match object.field field with
  | .undefined => .error (path ++ text "." ++ field ++ text " must be an integer")
  | value => parsePositiveInteger value field path maximum

/-- `optional_positive_integer`. -/
def optionalPositiveInteger (object : YamlNode) (field path : Bytes) (maximum default : ℕ) :
    Except Bytes ℕ :=
  match object.field field with
  | .undefined => .ok default
  | value => parsePositiveInteger value field path maximum

/-- The part of the configuration that deliveries use; the intervals are in seconds. -/
structure DeliveryConfig where
  retryInitial : ℕ
  retryMax : ℕ
  maxRequestBodyBytes : ℕ
  deriving DecidableEq

/-- The part of `parse_agent_config_node` on the delivery section. -/
def parseDeliveryConfig (root : YamlNode) : Except Bytes DeliveryConfig := do
  match root.field (text "delivery") with
  | .map fields =>
    let delivery := YamlNode.map fields
    let retryInitial ←
      requiredPositiveInteger delivery (text "retry_initial_seconds") (text "delivery") 3600
    let retryMax ←
      requiredPositiveInteger delivery (text "retry_max_seconds") (text "delivery") 86400
    if retryMax < retryInitial then
      .error (text "delivery.retry_max_seconds must be greater than or equal to " ++
        text "delivery.retry_initial_seconds")
    else
      let maxRequestBodyBytes ← optionalPositiveInteger delivery (text "max_request_body_bytes")
        (text "delivery") 1073741824 921600
      .ok ⟨retryInitial, retryMax, maxRequestBodyBytes⟩
  | _ => .error (text "delivery configuration section is required")

/-- A positive integer is accepted within its bounds. -/
theorem bounds_of_parsePositiveInteger {value : YamlNode} {field path : Bytes} {maximum n : ℕ}
    (h : parsePositiveInteger value field path maximum = .ok n) : 0 < n ∧ n ≤ maximum := by
  unfold parsePositiveInteger at h
  split at h
  · split_ifs at h with hrange
    injection h with h
    omega
  · cases h

theorem bounds_of_requiredPositiveInteger {object : YamlNode} {field path : Bytes}
    {maximum n : ℕ} (h : requiredPositiveInteger object field path maximum = .ok n) :
    0 < n ∧ n ≤ maximum := by
  unfold requiredPositiveInteger at h
  split at h
  · cases h
  · exact bounds_of_parsePositiveInteger h

theorem pos_of_optionalPositiveInteger {object : YamlNode} {field path : Bytes}
    {maximum default n : ℕ} (hdefault : 0 < default)
    (h : optionalPositiveInteger object field path maximum default = .ok n) : 0 < n := by
  unfold optionalPositiveInteger at h
  split at h
  · injection h with h
    exact h ▸ hdefault
  · exact (bounds_of_parsePositiveInteger h).1

/-- What an accepted configuration promises of its intervals. -/
structure DeliveryConfig.Accepted (config : DeliveryConfig) : Prop where
  initial_pos : 0 < config.retryInitial
  initial_le : config.retryInitial ≤ config.retryMax
  max_le : config.retryMax ≤ 86400
  body_pos : 0 < config.maxRequestBodyBytes

theorem accepted_of_parseDeliveryConfig {root : YamlNode} {config : DeliveryConfig}
    (h : parseDeliveryConfig root = .ok config) : config.Accepted := by
  unfold parseDeliveryConfig at h
  split at h
  · dsimp only at h
    rw [Fallible.bind_eq_ok] at h
    obtain ⟨retryInitial, hinitial, h⟩ := h
    rw [Fallible.bind_eq_ok] at h
    obtain ⟨retryMax, hmax, h⟩ := h
    split_ifs at h with horder
    rw [Fallible.bind_eq_ok] at h
    obtain ⟨maxRequestBodyBytes, hbody, h⟩ := h
    injection h with h
    rw [← h]
    exact ⟨(bounds_of_requiredPositiveInteger hinitial).1, Nat.le_of_not_lt horder,
      (bounds_of_requiredPositiveInteger hmax).2,
      pos_of_optionalPositiveInteger (by decide) hbody⟩
  · cases h

/-- The client that an accepted configuration creates. -/
def DeliveryConfig.Accepted.client {config : DeliveryConfig} (h : config.Accepted) :
    ReliableDeliveryClient where
  retryInitial := config.retryInitial
  retryMax := config.retryMax
  maxRequestBodyBytes := config.maxRequestBodyBytes
  retryInitial_pos := h.initial_pos
  retryInitial_le := h.initial_le
  maxRequestBodyBytes_pos := h.body_pos

/-! ## Durations of 64 bits -/

/-- The value of a step on durations; none where it leaves the 64 bits. -/
def duration (value : ℤ) : Option ℤ :=
  if -2 ^ 63 ≤ value ∧ value < 2 ^ 63 then some value else none

theorem duration_of_small {value : ℕ} (h : value ≤ 1000000000000) :
    duration (value : ℤ) = some (value : ℤ) := by
  rw [duration, if_pos]
  omega

namespace DeliveryConfig

variable (config : DeliveryConfig)

/-- The loop of `retry_delay`, with its turns that are left. -/
def doubleBase : ℕ → ℤ → Option ℤ
  | 0, base => some base
  | turns + 1, base =>
    if base < config.retryMax then do
      let doubled ← duration (base * 2)
      doubleBase turns (min (config.retryMax : ℤ) doubled)
    else some base

/-- The interval of an attempt in seconds. -/
def baseDelay (attempt : ℕ) : Option ℤ := config.doubleBase (attempt - 1) config.retryInitial

/-- `retry_delay` on durations of 64 bits, in milliseconds. -/
def retryDelay64 (key : Bytes) (attempt : ℕ) : Option ℤ := do
  let base ← config.baseDelay attempt
  let baseMs ← duration (base * 1000)
  let jitter := (stableHash (key ++ text "\n" ++ decimal attempt) % 201).toNat
  let product ← duration (baseMs * jitter)
  duration (baseMs + product.tdiv 1000)

end DeliveryConfig

/-! ## The interval of an attempt -/

section Accepted

variable {config : DeliveryConfig} (h : config.Accepted)
include h

/-- The doubling of an accepted interval never leaves the 64 bits. -/
theorem DeliveryConfig.Accepted.doubleBase_eq (turns : ℕ) {base : ℕ}
    (hbase : base ≤ config.retryMax) : config.doubleBase turns base =
      some ((h.client.backOff turns base : ℕ) : ℤ) := by
  induction turns generalizing base with
  | zero => rfl
  | succ turns ih =>
    have hmax := h.max_le
    have hclient : h.client.retryMax = config.retryMax := rfl
    rw [DeliveryConfig.doubleBase, ReliableDeliveryClient.backOff, hclient]
    by_cases hless : base < config.retryMax
    · have hdouble : duration ((base : ℤ) * 2) = some ((base * 2 : ℕ) : ℤ) := by
        rw [← duration_of_small (by omega)]
        push_cast
        rfl
      have hmin : min (config.retryMax : ℤ) ((base * 2 : ℕ) : ℤ) =
          ((min config.retryMax (base * 2) : ℕ) : ℤ) := by omega
      rw [if_pos (by omega), if_pos hless, hdouble, Option.bind_eq_bind, Option.bind_some, hmin]
      exact ih (Nat.min_le_left _ _)
    · rw [if_neg (by omega), if_neg hless]

end Accepted

/-- The doubled interval is the power of two that is cut off at the largest interval. -/
theorem ReliableDeliveryClient.backOff_eq (client : ReliableDeliveryClient) (times : ℕ) {base : ℕ}
    (hbase : base ≤ client.retryMax) :
    client.backOff times base = min client.retryMax (base * 2 ^ times) := by
  induction times generalizing base with
  | zero => simp [ReliableDeliveryClient.backOff, hbase]
  | succ times ih =>
    have hpos : 1 ≤ 2 ^ times := Nat.one_le_two_pow
    have hgrow : base * 2 * 1 ≤ base * 2 * 2 ^ times := Nat.mul_le_mul_left _ hpos
    rw [ReliableDeliveryClient.backOff, pow_succ']
    rw [← Nat.mul_assoc]
    by_cases hless : base < client.retryMax
    · rw [if_pos hless, ih (Nat.min_le_left _ _)]
      rcases Nat.le_total client.retryMax (base * 2) with hcut | hfree
      · have hlarge : client.retryMax * 1 ≤ client.retryMax * 2 ^ times :=
          Nat.mul_le_mul_left _ hpos
        rw [Nat.min_eq_left hcut]
        omega
      · rw [Nat.min_eq_right hfree]
    · rw [if_neg hless]
      omega

/-- The interval of an attempt that an accepted configuration gives. -/
theorem baseDelay_eq {config : DeliveryConfig} (h : config.Accepted) (attempt : ℕ) :
    config.baseDelay attempt =
      some ((min config.retryMax (config.retryInitial * 2 ^ (attempt - 1)) : ℕ) : ℤ) := by
  rw [DeliveryConfig.baseDelay, h.doubleBase_eq _ h.initial_le,
    h.client.backOff_eq _ h.initial_le]
  rfl

/-- The delay of the 64-bit durations is the delay of the client. -/
theorem retryDelay64_eq {config : DeliveryConfig} (h : config.Accepted) (key : Bytes)
    (attempt : ℕ) :
    config.retryDelay64 key attempt = some ((h.client.retryDelay key attempt : ℕ) : ℤ) := by
  have hbase := h.client.backOff_bounds (attempt - 1) (Nat.le_refl _) h.initial_le
  have hmax : h.client.retryMax ≤ 86400 := h.max_le
  have hjitter := ReliableDeliveryClient.jitter_le key attempt
  have hinitial : config.baseDelay attempt =
      some ((h.client.backOff (attempt - 1) config.retryInitial : ℕ) : ℤ) :=
    h.doubleBase_eq _ h.initial_le
  rw [DeliveryConfig.retryDelay64, ReliableDeliveryClient.retryDelay, hinitial]
  have hclient : h.client.retryInitial = config.retryInitial := rfl
  rw [hclient]
  generalize h.client.backOff (attempt - 1) config.retryInitial = base at *
  generalize (stableHash (key ++ text "\n" ++ decimal attempt) % 201).toNat = jitter at *
  have hproduct : 1000 * base * jitter ≤ 86400000 * 200 :=
    Nat.mul_le_mul (by omega) hjitter
  have hms : duration ((base : ℤ) * 1000) = some ((1000 * base : ℕ) : ℤ) := by
    have hcast : (base : ℤ) * 1000 = ((1000 * base : ℕ) : ℤ) := by omega
    rw [hcast]
    exact duration_of_small (by omega)
  have hshare : duration (((1000 * base : ℕ) : ℤ) * (jitter : ℤ)) =
      some ((1000 * base * jitter : ℕ) : ℤ) := by
    rw [← Int.natCast_mul]
    exact duration_of_small (by omega)
  have hdiv : ((1000 * base * jitter : ℕ) : ℤ).tdiv 1000 =
      ((1000 * base * jitter / 1000 : ℕ) : ℤ) := by
    rw [Int.tdiv_eq_ediv_of_nonneg (by omega)]
    omega
  rw [Option.bind_eq_bind, Option.bind_some, hms, Option.bind_some]
  dsimp only
  rw [hshare, Option.bind_some, hdiv, ← Int.natCast_add]
  exact duration_of_small (by omega)

/-- The jitter adds at most a fifth of the interval. -/
theorem ReliableDeliveryClient.retryDelay_near (client : ReliableDeliveryClient) (key : Bytes)
    (attempt : ℕ) :
    client.backOff (attempt - 1) client.retryInitial * 1000 ≤ client.retryDelay key attempt ∧
      client.retryDelay key attempt * 10 ≤
        client.backOff (attempt - 1) client.retryInitial * 1000 * 12 := by
  have hshare := Nat.mul_le_mul_left
    (1000 * client.backOff (attempt - 1) client.retryInitial) (jitter_le key attempt)
  simp only [ReliableDeliveryClient.retryDelay]
  omega

/-- For every accepted configuration, key and attempt: the interval is the smaller one of the
largest interval and of the first one doubled with every earlier attempt, it never shrinks with
later attempts, no step overflows, and the delay lies between the interval and 1.2 times it. -/
theorem retry_delay_bounds {root : YamlNode} {config : DeliveryConfig}
    (hconfig : parseDeliveryConfig root = .ok config) (key : Bytes) {attempt : ℕ}
    (hattempt : 0 < attempt) :
    ∃ base delay : ℤ, config.baseDelay attempt = some base ∧
      base = min (config.retryMax : ℤ) (config.retryInitial * 2 ^ (attempt - 1)) ∧
      (∀ later, attempt ≤ later → ∃ laterBase, config.baseDelay later = some laterBase ∧
        base ≤ laterBase) ∧
      config.retryDelay64 key attempt = some delay ∧
      base * 1000 ≤ delay ∧ delay * 10 ≤ base * 1000 * 12 := by
  have h := accepted_of_parseDeliveryConfig hconfig
  have hnear := h.client.retryDelay_near key attempt
  have hbackOff : h.client.backOff (attempt - 1) h.client.retryInitial =
      min config.retryMax (config.retryInitial * 2 ^ (attempt - 1)) :=
    h.client.backOff_eq _ h.initial_le
  rw [hbackOff] at hnear
  have hcast : ((config.retryInitial * 2 ^ (attempt - 1) : ℕ) : ℤ) =
      (config.retryInitial : ℤ) * 2 ^ (attempt - 1) := by
    rw [Int.natCast_mul, Int.natCast_pow]
    rfl
  refine ⟨_, _, baseDelay_eq h attempt, ?_, ?_, retryDelay64_eq h key attempt, ?_, ?_⟩
  · rw [← hcast]
    omega
  · intro later hlater
    refine ⟨_, baseDelay_eq h later, ?_⟩
    have hpow : 2 ^ (attempt - 1) ≤ 2 ^ (later - 1) := Nat.pow_le_pow_right (by decide) (by omega)
    have hgrow : config.retryInitial * 2 ^ (attempt - 1) ≤ config.retryInitial * 2 ^ (later - 1) :=
      Nat.mul_le_mul_left _ hpow
    omega
  · omega
  · omega

/-- A server that stays down for three attempts. -/
theorem retry_delay_bounds_third :
    ∃ base delay : ℤ, (DeliveryConfig.mk 5 300 921600).baseDelay 3 = some base ∧
      base = min 300 (5 * 2 ^ (3 - 1)) ∧
      (∀ later, 3 ≤ later → ∃ laterBase,
        (DeliveryConfig.mk 5 300 921600).baseDelay later = some laterBase ∧ base ≤ laterBase) ∧
      (DeliveryConfig.mk 5 300 921600).retryDelay64 (text "key") 3 = some delay ∧
      base * 1000 ≤ delay ∧ delay * 10 ≤ base * 1000 * 12 := by
  have hconfig : parseDeliveryConfig (.map [(text "delivery", .map [
      (text "retry_initial_seconds", .scalar (some 5)),
      (text "retry_max_seconds", .scalar (some 300))])]) = .ok ⟨5, 300, 921600⟩ := by decide
  exact retry_delay_bounds hconfig (text "key") (by decide)

end LabBridge.Agent
