import Mathlib.Data.List.AList
import ChatHub.Base.Action
import ChatHub.Base.Decimal

namespace ChatHub

/-!
# Redis

The commands of a Redis server on strings, hashes and sets, as their
documentation describes them, and the replies as a client library hands them
out.  A command names one key, except for the pattern search, and leaves
every other key alone; that is all most proofs need, and `exec_frame` says it
once.  A set that loses its last member is gone, as is a key that is deleted.
Redis leaves it open in which order it lists the members of a set and the keys
of a search.  Here members are listed in the order in which they were added.

A connection decides for every command it issues whether the server answers
normally, answers with an error, or is lost.  What it decides is a parameter.
-/

namespace Redis

/-- A map from field names or keys. -/
abbrev Table (Value : Type) := AList (fun _ : Bytes => Value)

/-- The members of a set, each once, in the order in which they are listed. -/
structure Members where
  members : List Bytes
  nodup : members.Nodup
  deriving DecidableEq

namespace Members

/-- The set with one more member. -/
def add (set : Members) (member : Bytes) : Members :=
  if absent : member ∉ set.members then
    ⟨set.members ++ [member], by
      rw [List.nodup_append]
      refine ⟨set.nodup, List.nodup_singleton _, ?_⟩
      intro left isMember right isNew equal
      rw [List.mem_singleton.mp isNew] at equal
      exact absent (equal ▸ isMember)⟩
  else set

/-- The set without a member. -/
def remove (set : Members) (member : Bytes) : Members :=
  ⟨set.members.erase member, set.nodup.erase member⟩

/-- The set without members. -/
def empty : Members :=
  ⟨[], List.nodup_nil⟩

theorem mem_add (set : Members) (member other : Bytes) :
    other ∈ (set.add member).members <-> other ∈ set.members ∨ other = member := by
  unfold add
  by_cases absent : member ∉ set.members
  · rw [dif_pos absent]
    simp
  · rw [dif_neg absent]
    rw [not_not] at absent
    constructor
    · exact Or.inl
    · intro either
      rcases either with old | new
      · exact old
      · rw [new]
        exact absent

theorem mem_remove (set : Members) (member other : Bytes) :
    other ∈ (set.remove member).members <-> other ≠ member ∧ other ∈ set.members :=
  set.nodup.mem_erase_iff

end Members

/-- What a key holds. -/
inductive Value where
  | string (text : Bytes)
  | hash (fields : Table Bytes)
  | set (members : Members)

/-- The keys of a database. -/
abbrev Store := Table Value

/-- The commands.  `keys` searches for the pattern that consists of its
argument, without special characters, and a final `*`. -/
inductive Command where
  | hexists (key field : Bytes)
  | hget (key field : Bytes)
  | hmget (key : Bytes) (fields : List Bytes)
  | hmset (key : Bytes) (pairs : List (Bytes × Bytes))
  | hset (key field value : Bytes)
  | incr (key : Bytes)
  | smembers (key : Bytes)
  | sadd (key : Bytes) (members : List Bytes)
  | srem (key member : Bytes)
  | sismember (key member : Bytes)
  | keys (start : Bytes)
  | del (key : Bytes)

/-- A reply. -/
inductive Reply where
  | status (text : Bytes)
  | error (text : Bytes)
  | integer (value : Int)
  | string (text : Bytes)
  | nil
  | array (elements : List Reply)

namespace Reply

/-- The reply is an error. -/
def isError : Reply -> Bool
  | .error _ => true
  | _ => false

/-- The number in a reply; zero in a reply of another kind. -/
def integerField : Reply -> Int
  | .integer value => value
  | _ => 0

/-- The string in a reply; a null pointer in a reply without one. -/
def strField : Reply -> Option Bytes
  | .status text => some text
  | .error text => some text
  | .string text => some text
  | _ => none

/-- The elements of a reply; none in a reply of another kind. -/
def elementsField : Reply -> List Reply
  | .array elements => elements
  | _ => []

/-- A string or nil. -/
def ofOption : Option Bytes -> Reply
  | some text => .string text
  | none => .nil

end Reply

/-- The reply to a command for a value of another type. -/
def wrongType : Reply :=
  .error (ascii "WRONGTYPE Operation against a key holding the wrong kind of value")

/-- A number is stored in its shortest decimal form and within 64 bits. -/
def readCounter (text : Bytes) : Option Int :=
  if intText (atoll text) = text then some (atoll text) else none

/-- The fields of a hash after setting pairs in order. -/
def setFields (fields : Table Bytes) (pairs : List (Bytes × Bytes)) : Table Bytes :=
  pairs.foldl (fun current pair => current.insert pair.1 pair.2) fields

/-- The fields of a key, where a missing key counts as an empty hash. -/
def hashAt (store : Store) (key : Bytes) : Option (Table Bytes) :=
  match store.lookup key with
  | none => some ∅
  | some (.hash fields) => some fields
  | some _ => none

/-- The members of a key, where a missing key counts as an empty set. -/
def setAt (store : Store) (key : Bytes) : Option Members :=
  match store.lookup key with
  | none => some Members.empty
  | some (.set members) => some members
  | some _ => none

/-- The counter of a key, where a missing key counts as zero. -/
def counterAt (store : Store) (key : Bytes) : Option Int :=
  match store.lookup key with
  | none => some 0
  | some (.string text) => readCounter text
  | some _ => none

/-- The keys that start with a text. -/
def keysFrom (store : Store) (start : Bytes) : List Bytes :=
  store.keys.filter (fun key => start.isPrefixOf key)

/-- The effect of a command and its reply. -/
def exec (store : Store) : Command -> Reply × Store
  | .hexists key field =>
      match hashAt store key with
      | none => (wrongType, store)
      | some fields => (.integer (if (fields.lookup field).isSome then 1 else 0), store)
  | .hget key field =>
      match hashAt store key with
      | none => (wrongType, store)
      | some fields => (Reply.ofOption (fields.lookup field), store)
  | .hmget key names =>
      match hashAt store key with
      | none => (wrongType, store)
      | some fields => (.array (names.map (fun name => Reply.ofOption (fields.lookup name))), store)
  | .hmset key pairs =>
      match hashAt store key with
      | none => (wrongType, store)
      | some fields => (.status (ascii "OK"), store.insert key (.hash (setFields fields pairs)))
  | .hset key field value =>
      match hashAt store key with
      | none => (wrongType, store)
      | some fields =>
          (.integer (if (fields.lookup field).isSome then 0 else 1),
            store.insert key (.hash (fields.insert field value)))
  | .incr key =>
      match counterAt store key with
      | none => (.error (ascii "ERR value is not an integer or out of range"), store)
      | some value =>
          if value = 2 ^ 63 - 1 then
            (.error (ascii "ERR increment or decrement would overflow"), store)
          else (.integer (value + 1), store.insert key (.string (intText (value + 1))))
  | .smembers key =>
      match setAt store key with
      | none => (wrongType, store)
      | some set => (.array (set.members.map Reply.string), store)
  | .sadd key members =>
      match setAt store key with
      | none => (wrongType, store)
      | some set =>
          let larger := members.foldl Members.add set
          (.integer (larger.members.length - set.members.length : Int),
            store.insert key (.set larger))
  | .srem key member =>
      match setAt store key with
      | none => (wrongType, store)
      | some set =>
          if member ∈ set.members then
            (.integer 1,
              if (set.remove member).members = [] then store.erase key
              else store.insert key (.set (set.remove member)))
          else (.integer 0, store)
  | .sismember key member =>
      match setAt store key with
      | none => (wrongType, store)
      | some set => (.integer (if member ∈ set.members then 1 else 0), store)
  | .keys start => (.array ((keysFrom store start).map Reply.string), store)
  | .del key => (.integer (if (store.lookup key).isSome then 1 else 0), store.erase key)

/-- How the server and the connection answer a command: normally, with an
error, or not at all, in which case the command may have been carried out. -/
inductive Outcome where
  | normal
  | error
  | lost (carriedOut : Bool)
  deriving DecidableEq

/-! ## What a command changes -/

/-- The keys that a command may change. -/
def Writes : Command -> Bytes -> Prop
  | .hmset key _, other => other = key
  | .hset key _ _, other => other = key
  | .incr key, other => other = key
  | .sadd key _, other => other = key
  | .srem key _, other => other = key
  | .del key, other => other = key
  | _, _ => False

/-- A command leaves every key alone that it does not name for writing. -/
theorem exec_frame (store : Store) {command : Command} {other : Bytes}
    (unwritten : Not (Writes command other)) :
    (exec store command).2.lookup other = store.lookup other := by
  cases command with
  | hexists key field =>
      simp only [exec]
      cases hashAt store key <;> rfl
  | hget key field =>
      simp only [exec]
      cases hashAt store key <;> rfl
  | hmget key names =>
      simp only [exec]
      cases hashAt store key <;> rfl
  | hmset key pairs =>
      simp only [exec]
      cases hashAt store key with
      | none => rfl
      | some fields => exact AList.lookup_insert_ne unwritten
  | hset key field value =>
      simp only [exec]
      cases hashAt store key with
      | none => rfl
      | some fields => exact AList.lookup_insert_ne unwritten
  | incr key =>
      simp only [exec]
      cases counterAt store key with
      | none => rfl
      | some value =>
          simp only
          split
          · rfl
          · exact AList.lookup_insert_ne unwritten
  | smembers key =>
      simp only [exec]
      cases setAt store key <;> rfl
  | sadd key members =>
      simp only [exec]
      cases setAt store key with
      | none => rfl
      | some set => exact AList.lookup_insert_ne unwritten
  | srem key member =>
      simp only [exec]
      cases setAt store key with
      | none => rfl
      | some set =>
          simp only
          split
          · simp only
            split
            · exact AList.lookup_erase_ne unwritten
            · exact AList.lookup_insert_ne unwritten
          · rfl
  | sismember key member =>
      simp only [exec]
      cases setAt store key <;> rfl
  | keys start => rfl
  | del key => exact AList.lookup_erase_ne unwritten

/-! ## What a key holds after a command -/

/-- The value of a field, if the key holds a hash with it. -/
def fieldAt (store : Store) (key name : Bytes) : Option Bytes :=
  (hashAt store key).bind (fun fields => fields.lookup name)

section Congruence

variable {left right : Store} {key : Bytes}

theorem hashAt_congr (same : left.lookup key = right.lookup key) :
    hashAt left key = hashAt right key := by
  unfold hashAt
  rw [same]

theorem setAt_congr (same : left.lookup key = right.lookup key) :
    setAt left key = setAt right key := by
  unfold setAt
  rw [same]

theorem counterAt_congr (same : left.lookup key = right.lookup key) :
    counterAt left key = counterAt right key := by
  unfold counterAt
  rw [same]

theorem fieldAt_congr (same : left.lookup key = right.lookup key) (name : Bytes) :
    fieldAt left key name = fieldAt right key name := by
  unfold fieldAt
  rw [hashAt_congr same]

end Congruence

theorem hashAt_insert (store : Store) (key : Bytes) (fields : Table Bytes) :
    hashAt (store.insert key (.hash fields)) key = some fields := by
  unfold hashAt
  rw [AList.lookup_insert]

theorem setAt_insert (store : Store) (key : Bytes) (members : Members) :
    setAt (store.insert key (.set members)) key = some members := by
  unfold setAt
  rw [AList.lookup_insert]

/-- A number of 64 bits is read back from a counter. -/
theorem counterAt_insert (store : Store) (key : Bytes) {value : Int} (low : -2 ^ 63 ≤ value)
    (high : value < 2 ^ 63) :
    counterAt (store.insert key (.string (intText value))) key = some value := by
  unfold counterAt
  rw [AList.lookup_insert]
  simp only [readCounter, atoll_intText low high, if_true]

/-- Setting pairs keeps the fields that are not among their names. -/
theorem setFields_lookup_of_not_mem {pairs : List (Bytes × Bytes)} {name : Bytes}
    (unnamed : name ∉ pairs.map Prod.fst) (fields : Table Bytes) :
    (setFields fields pairs).lookup name = fields.lookup name := by
  unfold setFields
  induction pairs generalizing fields with
  | nil => rfl
  | cons pair rest inductionHypothesis =>
      rw [List.map_cons, List.mem_cons, not_or] at unnamed
      rw [List.foldl_cons, inductionHypothesis unnamed.2, AList.lookup_insert_ne unnamed.1]

/-- Setting pairs with distinct names gives every name its value. -/
theorem setFields_lookup_of_mem {pairs : List (Bytes × Bytes)}
    (distinct : (pairs.map Prod.fst).Nodup) {name value : Bytes} (named : (name, value) ∈ pairs)
    (fields : Table Bytes) : (setFields fields pairs).lookup name = some value := by
  unfold setFields
  induction pairs generalizing fields with
  | nil => exact absurd named List.not_mem_nil
  | cons pair rest inductionHypothesis =>
      rw [List.map_cons, List.nodup_cons] at distinct
      rw [List.foldl_cons]
      rcases List.mem_cons.mp named with head | tail
      · have kept := setFields_lookup_of_not_mem distinct.1 (fields.insert pair.1 pair.2)
        unfold setFields at kept
        rw [← head] at kept ⊢
        rw [kept, AList.lookup_insert]
      · exact inductionHypothesis distinct.2 tail (fields.insert pair.1 pair.2)

/-- The fields after `HMSET`: those of the key are set, and all others stay. -/
theorem fieldAt_hmset (store : Store) (key : Bytes) (pairs : List (Bytes × Bytes))
    (other name : Bytes) :
    fieldAt (exec store (.hmset key pairs)).2 other name =
      if other = key then (hashAt store key).bind (fun fields => (setFields fields pairs).lookup name)
      else fieldAt store other name := by
  by_cases same : other = key
  · rw [if_pos same, same]
    unfold fieldAt
    cases found : hashAt store key with
    | none =>
        simp only [exec, found]
        rfl
    | some fields =>
        simp only [exec, found, hashAt_insert]
        rfl
  · rw [if_neg same]
    exact fieldAt_congr (exec_frame store (by exact same)) name

/-- `HMSET` keeps every field that it does not name, whatever the key. -/
theorem fieldAt_hmset_of_not_mem (store : Store) (key : Bytes) {pairs : List (Bytes × Bytes)}
    {name : Bytes} (unnamed : name ∉ pairs.map Prod.fst) (other : Bytes) :
    fieldAt (exec store (.hmset key pairs)).2 other name = fieldAt store other name := by
  rw [fieldAt_hmset]
  by_cases same : other = key
  · rw [if_pos same, same]
    unfold fieldAt
    congr 1
    funext fields
    exact setFields_lookup_of_not_mem unnamed fields
  · rw [if_neg same]

theorem exec_hmset_of_hash {store : Store} {key : Bytes} {fields : Table Bytes}
    (holds : hashAt store key = some fields) (pairs : List (Bytes × Bytes)) :
    exec store (.hmset key pairs) =
      (.status (ascii "OK"), store.insert key (.hash (setFields fields pairs))) := by
  simp only [exec, holds]

/-- `HSET` sets one field. -/
theorem exec_hset_store (store : Store) (key field value : Bytes) :
    (exec store (.hset key field value)).2 = (exec store (.hmset key [(field, value)])).2 := by
  simp only [exec]
  cases hashAt store key with
  | none => rfl
  | some fields => rfl

/-- The reply to `HGET`: the field, or an error for a value of another type. -/
theorem exec_hget (store : Store) (key field : Bytes) :
    (exec store (.hget key field)).1 =
      match hashAt store key with
      | none => wrongType
      | some fields => Reply.ofOption (fields.lookup field) := by
  simp only [exec]
  cases hashAt store key with
  | none => rfl
  | some fields => rfl

/-- The reply to `HMGET`. -/
theorem exec_hmget (store : Store) (key : Bytes) (names : List Bytes) :
    (exec store (.hmget key names)).1 =
      match hashAt store key with
      | none => wrongType
      | some fields => .array (names.map (fun name => Reply.ofOption (fields.lookup name))) := by
  simp only [exec]
  cases hashAt store key with
  | none => rfl
  | some fields => rfl

/-- The values are the same, whatever the order in which they list fields and
members. -/
def Value.Same : Value -> Value -> Prop
  | .hash left, .hash right => forall name, left.lookup name = right.lookup name
  | .set left, .set right => forall member, member ∈ left.members <-> member ∈ right.members
  | left, right => left = right

/-- The stores have the same keys with the same values. -/
def SameStore (left right : Store) : Prop :=
  forall key, Option.Rel Value.Same (left.lookup key) (right.lookup key)

theorem Value.Same.refl (value : Value) : Value.Same value value := by
  cases value with
  | string text => exact rfl
  | hash fields => exact fun _ => rfl
  | set members => exact fun _ => Iff.rfl

theorem SameStore.of_lookups {left right : Store}
    (same : forall key, left.lookup key = right.lookup key) : SameStore left right := by
  intro key
  rw [same key]
  cases right.lookup key with
  | none => exact Option.Rel.none
  | some value => exact Option.Rel.some (Value.Same.refl value)

theorem SameStore.fieldAt {left right : Store} (same : SameStore left right) (key name : Bytes) :
    fieldAt left key name = fieldAt right key name := by
  have atKey := same key
  unfold Redis.fieldAt hashAt
  generalize left.lookup key = leftValue at atKey ⊢
  generalize right.lookup key = rightValue at atKey ⊢
  cases atKey with
  | none => rfl
  | @some leftOne rightOne related =>
      cases leftOne with
      | hash fields =>
          cases rightOne with
          | hash others => exact related name
          | string text => cases related
          | set members => cases related
      | string text => cases related; rfl
      | set members =>
          cases rightOne with
          | hash others => cases related
          | string text => cases related
          | set others => rfl

/-- `HMSET` changes nothing exactly when every field has its value before. -/
theorem hmset_same_iff {store : Store} {key : Bytes} {fields : Table Bytes}
    (holds : hashAt store key = some fields) {pairs : List (Bytes × Bytes)} (isCons : pairs ≠ [])
    (distinct : (pairs.map Prod.fst).Nodup) :
    SameStore (exec store (.hmset key pairs)).2 store <->
      forall name value, (name, value) ∈ pairs -> fieldAt store key name = some value := by
  have atFields : forall name, fieldAt store key name = fields.lookup name := by
    intro name
    unfold fieldAt
    rw [holds, Option.bind_some]
  constructor
  · intro same name value member
    rw [← same.fieldAt, fieldAt_hmset, if_pos rfl, holds, Option.bind_some]
    exact setFields_lookup_of_mem distinct member fields
  · intro set other
    rw [exec_hmset_of_hash holds]
    by_cases isKey : other = key
    · subst isKey
      rcases List.exists_mem_of_ne_nil pairs isCons with ⟨⟨name, value⟩, member⟩
      -- a key whose hash has a field is not missing
      have found : store.lookup other = some (.hash fields) := by
        have present := set name value member
        rw [atFields] at present
        unfold hashAt at holds
        split at holds
        · cases holds
          cases present
        · next hash isHash =>
            rw [isHash, Option.some.inj holds]
        · cases holds
      rw [AList.lookup_insert, found]
      apply Option.Rel.some
      intro field
      by_cases named : field ∈ pairs.map Prod.fst
      · rcases List.mem_map.mp named with ⟨⟨_, content⟩, inPairs, same⟩
        subst same
        rw [setFields_lookup_of_mem distinct inPairs fields, ← atFields, set _ _ inPairs]
      · exact setFields_lookup_of_not_mem named fields
    · rw [AList.lookup_insert_ne isKey]
      cases store.lookup other with
      | none => exact Option.Rel.none
      | some value => exact Option.Rel.some (Value.Same.refl value)

/-- The member is in the set of the key. -/
def InSet (store : Store) (key member : Bytes) : Prop :=
  Exists fun set => setAt store key = some set ∧ member ∈ set.members

theorem inSet_iff {store : Store} {key : Bytes} {set : Members} (holds : setAt store key = some set)
    (member : Bytes) : InSet store key member <-> member ∈ set.members := by
  constructor
  · rintro ⟨other, found, isMember⟩
    rw [holds] at found
    rw [Option.some.inj found]
    exact isMember
  · exact fun isMember => ⟨set, holds, isMember⟩

theorem inSet_congr {left right : Store} {key : Bytes} (same : left.lookup key = right.lookup key)
    (member : Bytes) : InSet left key member <-> InSet right key member := by
  unfold InSet
  rw [setAt_congr same]

/-- `SREM` removes one member, also when it was the last one. -/
theorem inSet_srem {store : Store} {key : Bytes} {set : Members} (holds : setAt store key = some set)
    (member other : Bytes) :
    InSet (exec store (.srem key member)).2 key other <-> other ≠ member ∧ InSet store key other := by
  rw [inSet_iff holds]
  simp only [exec, holds]
  by_cases isMember : member ∈ set.members
  · rw [if_pos isMember]
    rw [← Members.mem_remove]
    by_cases isLast : (set.remove member).members = []
    · have gone : setAt (store.erase key) key = some Members.empty := by
        unfold setAt
        rw [AList.lookup_erase]
      rw [if_pos isLast, inSet_iff gone, isLast]
      rfl
    · rw [if_neg isLast]
      exact inSet_iff (setAt_insert store key _) other
  · rw [if_neg isMember]
    refine (inSet_iff holds other).trans ⟨fun isOther => ⟨?_, isOther⟩, And.right⟩
    rintro same
    exact isMember (same ▸ isOther)

/-- A set without one text.  It is gone if this was the last one. -/
theorem setAt_srem {store : Store} {key member : Bytes} {set : Members}
    (holds : setAt store key = some set) :
    (setAt (exec store (.srem key member)).2 key).map Members.members =
      some (set.members.erase member) := by
  simp only [exec, holds]
  by_cases isMember : member ∈ set.members
  · rw [if_pos isMember]
    by_cases isEmpty : (set.remove member).members = []
    · simp only [if_pos isEmpty]
      have gone : setAt (store.erase key) key = some Members.empty := by
        unfold setAt
        rw [AList.lookup_erase]
      rw [gone]
      exact congrArg some isEmpty.symm
    · simp only [if_neg isEmpty]
      rw [setAt_insert]
      rfl
  · rw [if_neg isMember]
    simp only [holds, Option.map_some, List.erase_of_not_mem isMember]

theorem mem_keysFrom {store : Store} {start key : Bytes} :
    key ∈ keysFrom store start <-> (store.lookup key).isSome = true ∧ start <+: key := by
  unfold keysFrom
  rw [List.mem_filter, ← AList.mem_keys, List.isPrefixOf_iff_prefix, AList.lookup_isSome]

theorem exec_incr_of_counter {store : Store} {key : Bytes} {value : Int}
    (holds : counterAt store key = some value) (room : value < 2 ^ 63 - 1) :
    exec store (.incr key) =
      (.integer (value + 1), store.insert key (.string (intText (value + 1)))) := by
  simp only [exec, holds, if_neg (Int.ne_of_lt room)]

end Redis
end ChatHub
