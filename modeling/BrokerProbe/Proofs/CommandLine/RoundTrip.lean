import Mathlib.Data.List.Perm.Basic
import BrokerProbe.Proofs.CommandLine.Reading
import BrokerProbe.Proofs.Settings.Rendering
import BrokerProbe.Proofs.Settings.Validity
import BrokerProbe.Proofs.Text.Decimal
/-!
# Settings on the command line

Settings that pass their checks can be written as arguments and are read back from them
as they were.  The arguments may stand in any order that keeps the peers and the roles in
theirs, and an option may be left out where the settings have what they would have
without it.
-/

namespace BrokerProbe

structure Settings.Fits (settings : Settings) : Prop where
  metadataTimeout : settings.metadataTimeout < 2 ^ 64
  readTimeout : settings.readTimeout < 2 ^ 64
  roundInterval : settings.roundInterval < 2 ^ 64
  maxRounds : forall rounds, settings.maxRounds = some rounds -> rounds < 2 ^ 64

namespace CommandLine

/-!
# Which arguments write settings
-/

def gives (parameter : Parameter) (argument : String) : Bool :=
  (parameter.flag ++ "=").toList.isPrefixOf argument.toList

def without (omitted : List Parameter) (arguments : List String) : List String :=
  arguments.filter fun argument => !omitted.any fun parameter => gives parameter argument

def standard : Settings :=
  .ofNames "kafka-cluster" "localhost:9092" "localhost:8080"

/-- Whether settings are, as far as an option goes, what they are without it. -/
def Omissible (settings : Settings) : Parameter -> Prop
  | .clusterName => settings.cluster = standard.cluster
  | .bootstrapServers => settings.servers = standard.servers
  | .peer => settings.roster = standard.roster
  | .serviceAddress => settings.address = standard.address
  | .appProperties => settings.switches = standard.switches
  | .role => settings.roles = standard.roles
  | .roundInterval => settings.roundInterval = standard.roundInterval
  | .maxRounds => settings.maxRounds = standard.maxRounds
  | .metadataTimeout => settings.metadataTimeout = standard.metadataTimeout
  | .readTimeout => settings.readTimeout = standard.readTimeout
  | .logLevel => True

/-- Whether arguments are others in an order that keeps the peers and the roles in theirs. -/
structure Reorders (arguments others : List String) : Prop where
  perm : arguments.Perm others
  peers : arguments.filter (gives .peer) = others.filter (gives .peer)
  roles : arguments.filter (gives .role) = others.filter (gives .role)

/-- Whether arguments write settings, with the switches in a file and some options left out. -/
structure Writes (settings : Settings) (files : Settings.Files) (path : String)
    (omitted : List Parameter) (arguments : List String) : Prop where
  omissible : forall parameter, parameter ∈ omitted -> Omissible settings parameter
  /-- The file that is named has a name, can be read and holds the switches. -/
  file : .appProperties ∉ omitted -> path ≠ "" ∧ files path = .ok settings.switches.render
  reorders : Reorders arguments (without omitted (render settings path))

/-!
# Arguments by option
-/

theorem gives_iff {parameter : Parameter} {argument : String} :
    gives parameter argument = true <-> exists text, argument = attach parameter text := by
  have htoList : forall text, (attach parameter text).toList =
      (parameter.flag ++ "=").toList ++ text.toList := fun _ => String.toList_append
  rw [gives, List.isPrefixOf_iff_prefix]
  constructor
  · rintro ⟨rest, hrest⟩
    refine ⟨String.ofList rest, String.toList_inj.mp ?_⟩
    rw [<- hrest, htoList, String.toList_ofList]
  · rintro ⟨text, rfl⟩
    rw [htoList]
    exact List.prefix_append _ _

theorem gives_text_iff {parameter : Parameter} {item : Item} :
    gives parameter item.text = true <-> exists text, item = .value parameter text := by
  rw [gives_iff]
  exact exists_congr fun text => Item.text_injective.eq_iff (b := .value parameter text)

theorem gives_value (parameter other : Parameter) (text : String) :
    gives parameter (Item.value other text).text = decide (other = parameter) := by
  rw [Bool.eq_iff_iff, gives_text_iff, decide_eq_true_eq]
  simp

theorem gives_internalTopics (parameter : Parameter) :
    gives parameter Item.internalTopics.text = false := by
  rw [<- Bool.not_eq_true, gives_text_iff]
  rintro ⟨_, h⟩
  cases h

theorem attach_injective (parameter : Parameter) : Function.Injective (attach parameter) := by
  intro first second h
  have hitems : Item.value parameter first = Item.value parameter second := Item.text_injective h
  exact (Item.value.inj hitems).2

theorem eq_of_gives {first second : Parameter} {argument : String}
    (hfirst : gives first argument = true) (hsecond : gives second argument = true) :
    first = second := by
  rcases gives_iff.mp hfirst with ⟨text, rfl⟩
  have hvalue := gives_value second first text
  exact of_decide_eq_true (hvalue.symm.trans hsecond)

theorem filter_gives_map_text (parameter : Parameter) (items : List Item) :
    (items.map Item.text).filter (gives parameter) =
      (values parameter items).map (attach parameter) := by
  induction items with
  | nil => rfl
  | cons item items ih =>
      cases item with
      | value other text =>
          rw [List.map_cons, List.filter_cons, gives_value, ih, values_cons]
          by_cases h : other = parameter
          · subst h
            simp [Item.text]
          · simp [h]
      | internalTopics =>
          rw [List.map_cons, List.filter_cons, gives_internalTopics, ih, values_cons_internalTopics]
          rfl

theorem filter_gives_without (parameter : Parameter) (omitted : List Parameter)
    (arguments : List String) :
    (without omitted arguments).filter (gives parameter) =
      if parameter ∈ omitted then [] else arguments.filter (gives parameter) := by
  rw [without, List.filter_filter]
  split
  next hmem =>
    refine List.filter_eq_nil_iff.mpr fun argument _ hboth => ?_
    rw [Bool.and_eq_true, Bool.not_eq_true', List.any_eq_false] at hboth
    exact hboth.2 parameter hmem hboth.1
  next hmem =>
    refine List.filter_congr fun argument _ => ?_
    rw [Bool.eq_iff_iff, Bool.and_eq_true, Bool.not_eq_true', List.any_eq_false]
    refine and_iff_left_of_imp fun hgives other hother hgivesOther => hmem ?_
    rw [eq_of_gives hgives hgivesOther]
    exact hother

/-!
# The values of settings
-/

def writtenValues (settings : Settings) (path : String) : Parameter -> List String
  | .clusterName => [settings.cluster]
  | .bootstrapServers => [settings.servers]
  | .peer => settings.roster.addresses
  | .serviceAddress => [settings.address]
  | .appProperties => [path]
  | .role => settings.roles.map Role.label
  | .roundInterval => [toString settings.roundInterval]
  | .maxRounds => (settings.maxRounds.map toString).toList
  | .metadataTimeout => [toString settings.metadataTimeout]
  | .readTimeout => [toString settings.readTimeout]
  | .logLevel => []

def writingOrder : List Parameter :=
  [.clusterName, .bootstrapServers, .serviceAddress, .appProperties, .roundInterval,
    .metadataTimeout, .readTimeout, .peer, .role, .maxRounds]

def itemsOf (settings : Settings) (path : String) : List Item :=
  (writingOrder.flatMap fun parameter =>
    (writtenValues settings path parameter).map (.value parameter)) ++
  if settings.includeInternal then [.internalTopics] else []

variable {settings : Settings} {files : Settings.Files} {path : String}
  {omitted : List Parameter}

theorem map_text_itemsOf : (itemsOf settings path).map Item.text = render settings path := by
  have hflag : (if settings.includeInternal then [Item.internalTopics] else []).map Item.text =
      if settings.includeInternal then [Toggle.internalTopics.flag] else [] := by
    split <;> rfl
  have htext : forall parameter, Item.text ∘ Item.value parameter = attach parameter :=
    fun _ => rfl
  simp only [itemsOf, render, writingOrder, writtenValues, List.flatMap_cons, List.flatMap_nil,
    hflag, htext, List.map_append, List.map_map, List.map_cons, List.map_nil, Option.toList_map]
  simp [Item.text, Function.comp_def]

theorem values_map_value (parameter other : Parameter) (texts : List String) :
    values parameter (texts.map (.value other)) = if other = parameter then texts else [] := by
  induction texts with
  | nil => simp [values]
  | cons text texts ih =>
      rw [List.map_cons, values_cons, ih]
      split <;> rfl

theorem values_flatMap_value (parameter : Parameter) (order : List Parameter)
    (texts : Parameter -> List String) :
    values parameter (order.flatMap fun other => (texts other).map (.value other)) =
      order.flatMap fun other => if other = parameter then texts other else [] := by
  induction order with
  | nil => rfl
  | cons other order ih =>
      rw [List.flatMap_cons, List.flatMap_cons, values_append, values_map_value, ih]

theorem values_itemsOf (parameter : Parameter) :
    values parameter (itemsOf settings path) = writtenValues settings path parameter := by
  have hflag :
      values parameter (if settings.includeInternal then [.internalTopics] else []) = [] := by
    split <;> rfl
  rw [itemsOf, values_append, hflag, List.append_nil, values_flatMap_value]
  cases parameter <;> simp [writingOrder, writtenValues]

theorem count_itemsOf :
    (itemsOf settings path).count .internalTopics = if settings.includeInternal then 1 else 0 := by
  have hvalues : Item.internalTopics ∉ writingOrder.flatMap fun parameter =>
      (writtenValues settings path parameter).map (Item.value parameter) := by
    simp
  rw [itemsOf, List.count_append, List.count_eq_zero.mpr hvalues]
  split <;> rfl

theorem length_writtenValues_le {parameter : Parameter} (h : ¬ parameter.Repeats) :
    (writtenValues settings path parameter).length <= 1 := by
  cases parameter with
  | peer | role => exact absurd trivial h
  | maxRounds =>
      rw [writtenValues]
      cases settings.maxRounds <;> simp
  | _ => simp [writtenValues]

def keptValues (settings : Settings) (path : String) (omitted : List Parameter)
    (parameter : Parameter) : List String :=
  if parameter ∈ omitted then [] else writtenValues settings path parameter

theorem length_keptValues_le {parameter : Parameter} (h : ¬ parameter.Repeats) :
    (keptValues settings path omitted parameter).length <= 1 := by
  rw [keptValues]
  split
  · exact Nat.zero_le 1
  · exact length_writtenValues_le h

theorem filter_gives_render (parameter : Parameter) :
    (without omitted (render settings path)).filter (gives parameter) =
      (keptValues settings path omitted parameter).map (attach parameter) := by
  rw [filter_gives_without, <- map_text_itemsOf, filter_gives_map_text, values_itemsOf, keptValues]
  split <;> rfl

/-!
# The items of written settings
-/

theorem exists_map_eq_of_perm {α β : Type} {f : α -> β} {images : List β} {items : List α}
    (h : images.Perm (items.map f)) :
    exists others : List α, others.map f = images ∧ others.Perm items := by
  have hitems : List.Forall₂ (fun image item => image = f item) (items.map f) items :=
    List.forall₂_map_left_iff.mpr (List.forall₂_same.mpr fun _ _ => rfl)
  rcases List.perm_comp_forall₂ h hitems with ⟨others, hothers, hperm⟩
  rw [<- List.forall₂_map_right_iff (R := Eq), List.forall₂_eq_eq_eq] at hothers
  exact ⟨others, hothers.symm, hperm⟩

theorem eq_of_perm_of_length_le_one {α : Type} {items others : List α} (h : items.Perm others)
    (hlength : others.length <= 1) : items = others := by
  match others, hlength with
  | [], _ => exact h.eq_nil
  | [_], _ => exact h.eq_singleton

/-- Whether items say what settings give, but for some options that they leave out. -/
structure Says (settings : Settings) (path : String) (omitted : List Parameter)
    (items : List Item) : Prop where
  values_eq : forall parameter,
    values parameter items = keptValues settings path omitted parameter
  internalTopics : items.count .internalTopics = if settings.includeInternal then 1 else 0

theorem Reorders.filter_eq {arguments : List String}
    (h : Reorders arguments (without omitted (render settings path))) (parameter : Parameter) :
    arguments.filter (gives parameter) =
      (keptValues settings path omitted parameter).map (attach parameter) := by
  by_cases hrepeats : parameter.Repeats
  · cases parameter with
    | peer => exact h.peers.trans (filter_gives_render .peer)
    | role => exact h.roles.trans (filter_gives_render .role)
    | _ => exact absurd hrepeats not_false
  · -- There is one such argument at most, so a permutation leaves it alone.
    have hperm := h.perm.filter (gives parameter)
    rw [filter_gives_render] at hperm
    refine eq_of_perm_of_length_le_one hperm ?_
    rw [List.length_map]
    exact length_keptValues_le hrepeats

theorem exists_says {arguments : List String}
    (h : Reorders arguments (without omitted (render settings path))) :
    exists items, items.map Item.text = arguments ∧ Says settings path omitted items := by
  have hperm := h.perm
  rw [<- map_text_itemsOf, without, List.filter_map] at hperm
  rcases exists_map_eq_of_perm hperm with ⟨items, rfl, hitems⟩
  refine ⟨items, rfl, fun parameter => ?_, ?_⟩
  · have hvalues := h.filter_eq parameter
    rw [filter_gives_map_text] at hvalues
    exact List.map_injective_iff.mpr (attach_injective parameter) hvalues
  · rw [hitems.count_eq, List.count_filter, count_itemsOf]
    simp [gives_internalTopics]

/-!
# What written settings come to
-/

theorem role?_label {role : Role} (h : role ≠ .producer) : role? role.label = some role := by
  cases role with
  | producer => exact absurd rfl h
  | _ => decide

theorem isSome_word?_toString {number : Nat} (h : number < 2 ^ 64) :
    (Text.word? (toString number)).isSome = true := by
  rw [Text.word?_toString h]
  rfl

theorem accepts_writtenValues (hvalid : settings.Valid) (hfits : settings.Fits)
    {parameter : Parameter} (hpath : parameter = .appProperties -> path ≠ "") {text : String}
    (htext : text ∈ writtenValues settings path parameter) : parameter.Accepts text := by
  cases parameter with
  | appProperties =>
      rw [List.mem_singleton.mp htext]
      exact hpath rfl
  | role =>
      rcases List.mem_map.mp htext with ⟨role, hrole, rfl⟩
      have hproducer : role ≠ .producer := fun h => hvalid.producer_not_mem (h ▸ hrole)
      exact Option.isSome_of_eq_some (role?_label hproducer)
  | roundInterval =>
      rw [List.mem_singleton.mp htext]
      exact isSome_word?_toString hfits.roundInterval
  | maxRounds =>
      rw [writtenValues, Option.mem_toList, Option.map_eq_some_iff] at htext
      rcases htext with ⟨rounds, hrounds, rfl⟩
      exact isSome_word?_toString (hfits.maxRounds rounds hrounds)
  | metadataTimeout =>
      rw [List.mem_singleton.mp htext]
      exact isSome_word?_toString hfits.metadataTimeout
  | readTimeout =>
      rw [List.mem_singleton.mp htext]
      exact isSome_word?_toString hfits.readTimeout
  | logLevel => cases htext
  | _ => trivial

namespace Says

variable {items : List Item}

theorem admissible (h : Says settings path omitted items) (hvalid : settings.Valid)
    (hfits : settings.Fits) (hpath : .appProperties ∉ omitted -> path ≠ "") :
    Admissible items where
  accepts parameter text htext := by
    rw [h.values_eq, keptValues] at htext
    split at htext
    · cases htext
    next homitted =>
      refine accepts_writtenValues hvalid hfits (fun hparameter => hpath ?_) htext
      rw [<- hparameter]
      exact homitted
  once parameter hsingle := by
    rw [h.values_eq]
    exact length_keptValues_le hsingle
  internalTopics := by
    rw [h.internalTopics]
    split
    · exact Nat.le_refl 1
    · exact Nat.zero_le 1

theorem getD_first? {Value : Type} {parameter : Parameter} {read : String -> Option Value}
    {text : String} {value default : Value}
    (hvalues : values parameter items = if parameter ∈ omitted then [] else [text])
    (hread : read text = some value) (hdefault : parameter ∈ omitted -> value = default) :
    (first? parameter read items).getD default = value := by
  rw [first?, hvalues]
  split
  next homitted => exact (hdefault homitted).symm
  · rw [List.head?_cons, Option.bind_some, hread, Option.getD_some]

theorem roles_said (h : Says settings path omitted items) (hvalid : settings.Valid)
    (homissible : .role ∈ omitted -> Omissible settings .role) :
    (if (said items).roles.isEmpty then [.consumer] else (said items).roles) = settings.roles := by
  have hroles : (said items).roles = (values .role items).filterMap role? := rfl
  rw [hroles, h.values_eq .role, keptValues]
  split
  next homitted => exact (homissible homitted).symm
  · have hread : (settings.roles.map Role.label).filterMap role? = settings.roles := by
      rw [List.filterMap_map]
      refine (List.filterMap_congr fun role hrole => ?_).trans List.filterMap_some
      exact role?_label fun hproducer => hvalid.producer_not_mem (hproducer ▸ hrole)
    rw [writtenValues, hread, List.isEmpty_eq_false_iff.mpr hvalid.roles_ne_nil]
    rfl

theorem maxRounds_said (h : Says settings path omitted items) (hfits : settings.Fits)
    (homissible : .maxRounds ∈ omitted -> Omissible settings .maxRounds) :
    (said items).maxRounds = settings.maxRounds := by
  have hfirst : (said items).maxRounds =
      (values .maxRounds items).head?.bind Text.word? := rfl
  rw [hfirst, h.values_eq .maxRounds, keptValues]
  split
  next homitted => exact (homissible homitted).symm
  · rw [writtenValues]
    cases hrounds : settings.maxRounds with
    | none => rfl
    | some rounds => exact Text.word?_toString (hfits.maxRounds rounds hrounds)

theorem switches_said (h : Says settings path omitted items)
    (homissible : .appProperties ∈ omitted -> Omissible settings .appProperties)
    (hfile : .appProperties ∉ omitted -> files path = .ok settings.switches.render) :
    (said items).switches files = .ok settings.switches := by
  have hfirst : (said items).appProperties = (values .appProperties items).head?.bind some := rfl
  rw [Arguments.switches, hfirst, h.values_eq .appProperties, keptValues]
  by_cases homitted : .appProperties ∈ omitted
  · rw [if_pos homitted]
    have hdefault : settings.switches = standard.switches := homissible homitted
    rw [hdefault]
    rfl
  · rw [if_neg homitted]
    exact Settings.Switches.load_of_render _ (hfile homitted)

theorem assemble_said (h : Says settings path omitted items) (hvalid : settings.Valid)
    (hfits : settings.Fits)
    (homissible : forall parameter, parameter ∈ omitted -> Omissible settings parameter) :
    (said items).assemble settings.switches = settings := by
  have hcluster : (said items).clusterName.getD "kafka-cluster" = settings.cluster :=
    getD_first? (h.values_eq .clusterName) rfl (homissible .clusterName)
  have hservers : (said items).bootstrapServers.getD "localhost:9092" = settings.servers :=
    getD_first? (h.values_eq .bootstrapServers) rfl (homissible .bootstrapServers)
  have hpeers : (said items).peers = settings.roster.addresses := by
    refine (h.values_eq .peer).trans ?_
    rw [keptValues]
    split
    next homitted =>
      have hroster : settings.roster = standard.roster := homissible .peer homitted
      rw [hroster]
      rfl
    · rfl
  have haddress : (said items).serviceAddress.getD "localhost:8080" = settings.address :=
    getD_first? (h.values_eq .serviceAddress) rfl (homissible .serviceAddress)
  have hmetadata : (said items).metadataTimeout.getD 10000 = settings.metadataTimeout :=
    getD_first? (h.values_eq .metadataTimeout) (Text.word?_toString hfits.metadataTimeout)
      (homissible .metadataTimeout)
  have hread : (said items).readTimeout.getD 5000 = settings.readTimeout :=
    getD_first? (h.values_eq .readTimeout) (Text.word?_toString hfits.readTimeout)
      (homissible .readTimeout)
  have hinterval : (said items).roundInterval.getD 1000 = settings.roundInterval :=
    getD_first? (h.values_eq .roundInterval) (Text.word?_toString hfits.roundInterval)
      (homissible .roundInterval)
  have hinternal : (said items).internalTopics = settings.includeInternal := by
    have hcount := h.internalTopics
    have hmem : (said items).internalTopics = decide (Item.internalTopics ∈ items) := rfl
    rw [hmem, Bool.eq_iff_iff, decide_eq_true_eq, <- List.count_pos_iff, hcount]
    split <;> simp [*]
  rw [Arguments.assemble, hcluster, hservers, hpeers, haddress,
    h.roles_said hvalid (homissible .role), hmetadata, hread, hinterval,
    h.maxRounds_said hfits (homissible .maxRounds), hinternal]

end Says

/-!
# Reading written settings
-/

theorem settings_eq_ok {arguments : Arguments} {switches : Settings.Switches}
    (hswitches : arguments.switches files = .ok switches)
    (hassemble : arguments.assemble switches = settings) (hvalid : settings.validate = .ok ()) :
    arguments.settings files = .ok settings := by
  rw [Arguments.settings, hswitches]
  simp only [bind, Except.bind, pure, Except.pure, hassemble, hvalid]

/--
Arguments that write settings which pass their checks are read as these settings, whatever
their order and whichever options with default values are left out.
-/
theorem settings_of_writes {arguments : List String} (hvalid : settings.validate = .ok ())
    (hfits : settings.Fits) (h : Writes settings files path omitted arguments) :
    exists given, parse arguments = .ok given ∧ given.settings files = .ok settings := by
  have hsound := (Settings.validate_eq_ok_iff settings).mp hvalid
  rcases exists_says h.reorders with ⟨items, rfl, hsays⟩
  have hadmissible := hsays.admissible hsound hfits fun homitted => (h.file homitted).1
  have hswitches := hsays.switches_said (h.omissible .appProperties) fun homitted =>
    (h.file homitted).2
  have hassemble := hsays.assemble_said hsound hfits h.omissible
  exact ⟨said items, parse_map_text hadmissible, settings_eq_ok hswitches hassemble hvalid⟩

/-!
# Values that look like options
-/

/-- Settings whose texts begin with dashes and hold equals signs, and one default. -/
def awkward : Settings where
  cluster := "-main=a b"
  servers := "--help"
  roster := { addresses := ["--peer=", "=", "-V"] }
  address := "="
  roles := [.metadata, .consumer]
  switches := { Settings.Switches.default with consumerLatency := false, environment := some "\"=" }
  metadataTimeout := 18446744073709551615
  readTimeout := 5000
  roundInterval := 0
  maxRounds := some 3
  includeInternal := true

def awkwardFiles : Settings.Files := fun path =>
  if path = "-p=.json" then .ok awkward.switches.render else .error .missing

def awkwardArguments : List String :=
  ["--role=metadata", "--peer=--peer=", "--include-internal-topics", "--max-rounds=3",
    "--peer==", "--app-properties=-p=.json", "--cluster-name=-main=a b",
    "--round-interval-ms=0", "--peer=-V", "--role=consumer",
    "--metadata-timeout-ms=18446744073709551615", "--service-address==",
    "--bootstrap-servers=--help"]

theorem writes_awkward :
    Writes awkward awkwardFiles "-p=.json" [.readTimeout] awkwardArguments where
  omissible parameter h := by
    rw [List.mem_singleton.mp h]
    rfl
  file _ := ⟨by decide, if_pos rfl⟩
  reorders := ⟨by decide +kernel, by decide +kernel, by decide +kernel⟩

theorem settings_of_writes_awkward :
    awkward.validate = .ok () ∧ awkward.Fits ∧
      Writes awkward awkwardFiles "-p=.json" [.readTimeout] awkwardArguments ∧
      exists given, parse awkwardArguments = .ok given ∧
        given.settings awkwardFiles = .ok awkward := by
  have hvalid : awkward.validate = .ok () := by decide +kernel
  have hfits : awkward.Fits := ⟨by decide, by decide, by decide, by decide⟩
  exact ⟨hvalid, hfits, writes_awkward, settings_of_writes hvalid hfits writes_awkward⟩

end CommandLine

end BrokerProbe
