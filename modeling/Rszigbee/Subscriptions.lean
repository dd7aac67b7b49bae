import Rszigbee.Intents

/-! Which of the topics the gateway understands reach it through its subscriptions. -/
namespace Rszigbee

/-- Whether one of the subscriptions matches the topic. -/
def Topics.covers (t : Topics) (topic : String) : Bool :=
  t.subscriptions.any fun filter => TopicFilter.matches filter topic

section Covered

variable {t : Topics}

/-- A filter below a base without wildcards is met below that base. -/
theorem matches_below (hplus : '+' ∉ t.base.toList) (hhash : '#' ∉ t.base.toList)
    (filter topic : String) :
    TopicFilter.matches (t.base ++ "/" ++ filter) (t.base ++ "/" ++ topic) =
      TopicFilter.matchLevels (TopicFilter.levels filter) (TopicFilter.levels topic) := by
  have hlevels : ∀ l ∈ TopicFilter.levels t.base, l ≠ ['+'] ∧ l ≠ ['#'] := by
    intro l hl
    constructor
    · rintro rfl
      exact hplus (TopicFilter.mem_of_mem_levels hl (List.mem_singleton_self _))
    · rintro rfl
      exact hhash (TopicFilter.mem_of_mem_levels hl (List.mem_singleton_self _))
  rw [TopicFilter.matches,TopicFilter.levels_append,TopicFilter.levels_append,
    TopicFilter.matchLevels_append hlevels]

/-- The three filters, below the base. -/
theorem covers_below (hplus : '+' ∉ t.base.toList) (hhash : '#' ∉ t.base.toList)
    (rest : String) :
    t.covers (t.base ++ "/" ++ rest) =
      ["+/set","+/get","bridge/request/+"].any fun filter =>
        TopicFilter.matchLevels (TopicFilter.levels filter) (TopicFilter.levels rest) := by
  have hbelow := matches_below hplus hhash
  have hset : t.base ++ "/+/set" = t.base ++ "/" ++ "+/set" := by rw [String.append_assoc]; rfl
  have hget : t.base ++ "/+/get" = t.base ++ "/" ++ "+/get" := by rw [String.append_assoc]; rfl
  have hrequest : t.base ++ "/bridge/request/+" = t.base ++ "/" ++ "bridge/request/+" := by
    rw [String.append_assoc]
    rfl
  simp only [Topics.covers,Topics.subscriptions,List.any_cons,List.any_nil,hset,hget,hrequest,hbelow]

/-- One level and the verb. -/
theorem verb_covered {address verb : String} (haddress : '/' ∉ address.toList)
    (hverb : verb = "set" ∨ verb = "get") :
    ["+/set","+/get","bridge/request/+"].any fun filter =>
      TopicFilter.matchLevels (TopicFilter.levels filter)
        (TopicFilter.levels (address ++ "/" ++ verb)) := by
  have hverb' : '/' ∉ verb.toList := by
    rcases hverb with rfl | rfl
    · decide
    · decide
  have hset : TopicFilter.levels "+/set" = [['+'],"set".toList] := by decide
  have hget : TopicFilter.levels "+/get" = [['+'],"get".toList] := by decide
  rw [TopicFilter.levels_append,TopicFilter.levels_eq_singleton haddress,
    TopicFilter.levels_eq_singleton hverb',List.any_cons,List.any_cons,hset,hget]
  rcases hverb with rfl | rfl
  · simp [TopicFilter.matchLevels]
  · simp [TopicFilter.matchLevels]

theorem levels_request (name : String) : TopicFilter.levels ("bridge/request/" ++ name) =
    "bridge".toList::"request".toList::TopicFilter.levels name := by
  have happend : "bridge/request/" ++ name = "bridge/request" ++ "/" ++ name := by
    rw [← String.toList_inj]
    simp
  have hbridge : TopicFilter.levels "bridge/request" = ["bridge".toList,"request".toList] := by
    decide
  rw [happend,TopicFilter.levels_append,hbridge]
  rfl

/-- A request is covered unless its name has levels of its own. -/
theorem request_covered (name : String) :
    (["+/set","+/get","bridge/request/+"].any fun filter =>
      TopicFilter.matchLevels (TopicFilter.levels filter)
        (TopicFilter.levels ("bridge/request/" ++ name))) ↔ '/' ∉ name.toList := by
  have hfilters : ∀ filter ∈ ["+/set","+/get","bridge/request/+"],
      ['#'] ∉ TopicFilter.levels filter ∧ (TopicFilter.levels filter).length ≤ 3 := by
    decide
  constructor
  · intro hany hslash
    obtain ⟨filter,hfilter,hmatch⟩ := List.any_eq_true.mp hany
    obtain ⟨hhash,hlength⟩ := hfilters filter hfilter
    have heq := TopicFilter.length_of_matchLevels hhash hmatch
    have htwo := TopicFilter.two_le_length_levels hslash
    rw [levels_request,List.length_cons,List.length_cons] at heq
    omega
  · intro hslash
    have hrequest : TopicFilter.levels "bridge/request/+" =
        ["bridge".toList,"request".toList,['+']] := by
      decide
    rw [levels_request,TopicFilter.levels_eq_singleton hslash]
    simp [hrequest,TopicFilter.matchLevels]

end Covered

/-- Below a base without wildcards, what is understood reaches the gateway, but for requests
whose names have several levels. -/
theorem intent_covered_iff (text : JsonText) {base : String} (hplus : '+' ∉ base.toList)
    (hhash : '#' ∉ base.toList) {message : Message} {intent : Inbound}
    (h : parse text (.new base) message = .ok intent) :
    (Topics.new base).covers message.topic ↔
      ¬ ∃ name, message.topic = (Topics.new base).bridgeRequest name ∧ '/' ∈ name.toList := by
  have hplus' : '+' ∉ (Topics.new base).base.toList := fun hmem => hplus (Topics.mem_base_new hmem)
  have hhash' : '#' ∉ (Topics.new base).base.toList := fun hmem => hhash (Topics.mem_base_new hmem)
  cases hstrip : (Topics.new base).strip message.topic with
  | none =>
    rw [parse,hstrip] at h
    cases h
  | some rest =>
    have htopic := Topics.strip_eq_some.mp hstrip
    have hname : ∀ name, message.topic = (Topics.new base).bridgeRequest name ↔
        rest = "bridge/request/" ++ name := by
      intro name
      rw [htopic,Topics.bridgeRequest,← String.toList_inj,← String.toList_inj]
      simp
    simp only [hname]
    rw [htopic,covers_below hplus' hhash']
    cases hrequest : stripPrefix "bridge/request/" rest with
    | some name =>
      obtain rfl := stripPrefix_eq_some.mp hrequest
      rw [request_covered]
      constructor
      · rintro hslash ⟨name',heq,hslash'⟩
        rw [← String.toList_inj,String.toList_append,String.toList_append] at heq
        rw [← List.append_cancel_left heq] at hslash'
        exact hslash hslash'
      · intro hnone hslash
        exact hnone ⟨name,rfl,hslash⟩
    | none =>
      rw [parse,hstrip] at h
      dsimp only at h
      rw [hrequest] at h
      obtain ⟨address,verb,rfl,haddress,hverb⟩ := exists_of_parseAddressed h
      refine iff_of_true (verb_covered haddress hverb) ?_
      rintro ⟨name,heq,-⟩
      rw [stripPrefix_eq_some.mpr heq] at hrequest
      cases hrequest

/-- The request `device/remove` is carried, and not subscribed to. -/
theorem request_not_covered : ¬ ∀ (text : JsonText) (base : String) (message : Message)
    (intent : Inbound), '+' ∉ base.toList → '#' ∉ base.toList →
      parse text (.new base) message = .ok intent →
      (Topics.new base).covers message.topic := by
  intro h
  have hcovers := h (.reading [0x36,0x30] (.number (.posInt 60))) "zigbee2mqtt"
    ⟨"zigbee2mqtt/bridge/request/device/remove",[]⟩ (.unknownRequest "device/remove")
    (by decide) (by decide) rfl
  exact absurd hcovers (by decide)

/-- `permit_join` reaches the gateway. -/
theorem permit_join_covered : (Topics.new "zigbee2mqtt").covers
    "zigbee2mqtt/bridge/request/permit_join" ↔
      ¬ ∃ name, "zigbee2mqtt/bridge/request/permit_join" =
        (Topics.new "zigbee2mqtt").bridgeRequest name ∧ '/' ∈ name.toList := by
  have hparse : parse (.reading [0x36,0x30] (.number (.posInt 60))) (.new "zigbee2mqtt")
      ⟨"zigbee2mqtt/bridge/request/permit_join",[0x36,0x30]⟩ =
        .ok (.permitJoin (.fromSecs 60)) := rfl
  have hplus : '+' ∉ "zigbee2mqtt".toList := by decide
  have hhash : '#' ∉ "zigbee2mqtt".toList := by decide
  have hcovers := intent_covered_iff _ hplus hhash hparse
  exact hcovers

end Rszigbee
