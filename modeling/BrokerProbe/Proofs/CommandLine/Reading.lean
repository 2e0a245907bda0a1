import BrokerProbe.CommandLine.Render
/-!
# What arguments come to

An argument that is complete in itself is an item: an option with its value
attached, or the one that stands alone.  Such arguments are taken in one by one, and
what they come to can be told from the values of each option alone, so only the order
of the values of one option matters.
-/

namespace BrokerProbe

namespace CommandLine

/-!
# Names
-/

theorem parameter?_name (parameter : Parameter) : parameter? parameter.name = some parameter := by
  cases parameter <;> decide

theorem name_injective {first second : Parameter} (h : first.name = second.name) :
    first = second := by
  have hfound := parameter?_name first
  rw [h, parameter?_name] at hfound
  exact (Option.some.inj hfound).symm

theorem equals_not_mem_name (parameter : Parameter) : '=' ∉ parameter.name.toList := by
  cases parameter <;> decide

/-!
# Tokens
-/

theorem attach_toList (parameter : Parameter) (value : String) :
    (attach parameter value).toList =
      '-' :: '-' :: (parameter.name.toList ++ '=' :: value.toList) := by
  simp [attach, Parameter.flag]

theorem ofChars_dashes {rest : List Char} (h : rest ≠ []) :
    Token.ofChars ('-' :: '-' :: rest) =
      .long (String.ofList (rest.takeWhile (· != '=')))
        (Token.attached? (rest.dropWhile (· != '='))) := by
  cases rest with
  | nil => exact absurd rfl h
  | cons c rest => rfl

theorem ofString_attach (parameter : Parameter) (value : String) :
    Token.ofString (attach parameter value) = .long parameter.name (some value) := by
  have hname : forall c, c ∈ parameter.name.toList -> (c != '=') = true := by
    intro c hc
    rw [bne_iff_ne]
    rintro rfl
    exact equals_not_mem_name parameter hc
  rw [Token.ofString, attach_toList, ofChars_dashes (by simp),
    List.takeWhile_append_of_pos hname, List.dropWhile_append_of_pos hname]
  simp [Token.attached?]

theorem ofString_flag :
    Token.ofString Toggle.internalTopics.flag = .long Toggle.internalTopics.name none := by
  decide

theorem readAll_long {argument name : String} {attached : Option String}
    (h : Token.ofString argument = .long name attached) (progress : Progress)
    (rest : List String) :
    progress.readAll (argument :: rest) =
      progress.takeLong name attached >>= fun next => next.readAll rest := by
  rw [Progress.readAll.eq_def]
  simp only [h]

def Progress.settled (arguments : Arguments) : Progress :=
  { arguments, pending := none }

theorem takeLong_name (arguments : Arguments) (parameter : Parameter) (text : String) :
    (Progress.settled arguments).takeLong parameter.name (some text) =
      assign arguments parameter text >>= fun next => .ok (Progress.settled next) := by
  simp only [Progress.takeLong, parameter?_name]
  rfl

theorem takeLong_internalTopics (arguments : Arguments) :
    (Progress.settled arguments).takeLong Toggle.internalTopics.name none =
      switchOn arguments .internalTopics >>= fun next => .ok (Progress.settled next) := by
  have hparameter : parameter? Toggle.internalTopics.name = none := by decide
  have htoggle : toggle? Toggle.internalTopics.name = some .internalTopics := by decide
  simp only [Progress.takeLong, hparameter, htoggle]
  rfl

/-!
# Items
-/

/-- An option with its value, or the one that stands alone. -/
inductive Item where
  | value (parameter : Parameter) (text : String)
  | internalTopics
  deriving DecidableEq, Repr

namespace Item

def text : Item -> String
  | value parameter text => attach parameter text
  | internalTopics => Toggle.internalTopics.flag

def take (arguments : Arguments) : Item -> Except Refusal Arguments
  | value parameter text => assign arguments parameter text
  | internalTopics => switchOn arguments .internalTopics

theorem text_injective : Function.Injective text := by
  intro first second h
  have htoken := congrArg Token.ofString h
  cases first with
  | value parameter text =>
      cases second with
      | value other more =>
          simp only [Item.text, ofString_attach, Token.long.injEq, Option.some.injEq] at htoken
          rw [name_injective htoken.1, htoken.2]
      | internalTopics =>
          simp [Item.text, ofString_attach, ofString_flag] at htoken
  | internalTopics =>
      cases second with
      | value other more =>
          simp [Item.text, ofString_attach, ofString_flag] at htoken
      | internalTopics => rfl

theorem readAll_text (arguments : Arguments) (item : Item) (rest : List String) :
    (Progress.settled arguments).readAll (item.text :: rest) =
      item.take arguments >>= fun next => (Progress.settled next).readAll rest := by
  cases item with
  | value parameter text =>
      rw [Item.text, readAll_long (ofString_attach parameter text), takeLong_name]
      show _ = assign arguments parameter text >>= _
      cases assign arguments parameter text <;> rfl
  | internalTopics =>
      rw [Item.text, readAll_long ofString_flag, takeLong_internalTopics]
      show _ = switchOn arguments .internalTopics >>= _
      cases switchOn arguments .internalTopics <;> rfl

theorem readAll_map_text (arguments : Arguments) (items : List Item) :
    (Progress.settled arguments).readAll (items.map text) = items.foldlM take arguments := by
  induction items generalizing arguments with
  | nil => rfl
  | cons item items ih =>
      rw [List.map_cons, readAll_text, List.foldlM_cons]
      cases item.take arguments with
      | error refusal => rfl
      | ok next => exact ih next

end Item

/-!
# What items come to
-/

def Parameter.Repeats : Parameter -> Prop
  | .peer => True
  | .role => True
  | _ => False

def Parameter.Accepts : Parameter -> String -> Prop
  | .appProperties, text => text ≠ ""
  | .role, text => (role? text).isSome
  | .roundInterval, text => (Text.word? text).isSome
  | .maxRounds, text => (Text.word? text).isSome
  | .metadataTimeout, text => (Text.word? text).isSome
  | .readTimeout, text => (Text.word? text).isSome
  | .logLevel, text => (Severity.parse? text).isSome
  | _, _ => True

def Item.value? (parameter : Parameter) : Item -> Option String
  | .value other text => if other = parameter then some text else none
  | .internalTopics => none

def values (parameter : Parameter) (items : List Item) : List String :=
  items.filterMap (Item.value? parameter)

def first? {Value : Type} (parameter : Parameter) (read : String -> Option Value)
    (items : List Item) : Option Value :=
  (values parameter items).head?.bind read

/-- What items come to, told from the values of each option alone. -/
def said (items : List Item) : Arguments where
  clusterName := first? .clusterName some items
  bootstrapServers := first? .bootstrapServers some items
  peers := values .peer items
  serviceAddress := first? .serviceAddress some items
  appProperties := first? .appProperties some items
  roles := (values .role items).filterMap role?
  roundInterval := first? .roundInterval Text.word? items
  maxRounds := first? .maxRounds Text.word? items
  metadataTimeout := first? .metadataTimeout Text.word? items
  readTimeout := first? .readTimeout Text.word? items
  logLevel := first? .logLevel Severity.parse? items
  internalTopics := decide (.internalTopics ∈ items)

/-- Whether items can be taken in one after the other, whatever their order. -/
structure Admissible (items : List Item) : Prop where
  accepts : forall parameter text, text ∈ values parameter items -> parameter.Accepts text
  once : forall parameter, ¬ parameter.Repeats -> (values parameter items).length <= 1
  internalTopics : items.count .internalTopics <= 1

theorem values_append (parameter : Parameter) (items more : List Item) :
    values parameter (items ++ more) = values parameter items ++ values parameter more :=
  List.filterMap_append

theorem values_cons (parameter other : Parameter) (text : String) (items : List Item) :
    values parameter (.value other text :: items) =
      (if other = parameter then [text] else []) ++ values parameter items := by
  by_cases h : other = parameter <;> simp [values, Item.value?, h]

theorem values_cons_internalTopics (parameter : Parameter) (items : List Item) :
    values parameter (.internalTopics :: items) = values parameter items := rfl

theorem values_concat (parameter other : Parameter) (items : List Item) (text : String) :
    values parameter (items ++ [.value other text]) =
      values parameter items ++ if other = parameter then [text] else [] := by
  have hnil : values parameter [] = [] := rfl
  rw [values_append, values_cons, hnil, List.append_nil]

theorem values_concat_internalTopics (parameter : Parameter) (items : List Item) :
    values parameter (items ++ [.internalTopics]) = values parameter items := by
  have hnil : values parameter [.internalTopics] = [] := rfl
  rw [values_append, hnil, List.append_nil]

theorem has_said {items : List Item} {parameter : Parameter}
    (hnew : ¬ parameter.Repeats -> values parameter items = []) :
    (said items).has parameter = false := by
  cases parameter with
  | peer | role => rfl
  | _ => simp [Arguments.has, said, first?, hnew not_false]

theorem assign_said {items : List Item} {parameter : Parameter} {text : String}
    (haccepts : parameter.Accepts text)
    (hnew : ¬ parameter.Repeats -> values parameter items = []) :
    assign (said items) parameter text = .ok (said (items ++ [.value parameter text])) := by
  rw [assign.eq_def, has_said hnew]
  cases parameter with
  | clusterName | bootstrapServers | serviceAddress =>
      simp [said, first?, values_concat, hnew not_false, pure, Except.pure]
  | peer =>
      simp [said, first?, values_concat, pure, Except.pure]
  | appProperties =>
      have hpath : text ≠ "" := haccepts
      simp [said, first?, values_concat, hnew not_false, hpath, pure, Except.pure]
  | role =>
      rcases Option.isSome_iff_exists.mp haccepts with ⟨role, hrole⟩
      simp [said, first?, values_concat, required, hrole, bind, Except.bind, pure,
        Except.pure]
  | roundInterval | maxRounds | metadataTimeout | readTimeout | logLevel =>
      rcases Option.isSome_iff_exists.mp haccepts with ⟨value, hvalue⟩
      simp [said, first?, values_concat, hnew not_false, required, hvalue, bind, Except.bind,
        pure, Except.pure]

theorem switchOn_said {items : List Item} (hnew : .internalTopics ∉ items) :
    switchOn (said items) .internalTopics = .ok (said (items ++ [.internalTopics])) := by
  simp [switchOn, said, first?, values_concat_internalTopics, hnew]

theorem take_said {items rest : List Item} {item : Item}
    (h : Admissible (items ++ item :: rest)) :
    item.take (said items) = .ok (said (items ++ [item])) := by
  cases item with
  | value parameter text =>
      have hvalues : values parameter (items ++ .value parameter text :: rest) =
          values parameter items ++ text :: values parameter rest := by
        rw [values_append, values_cons, if_pos rfl]
        rfl
      refine assign_said (h.accepts parameter text (by simp [hvalues])) fun hsingle => ?_
      -- A value before this one would make it the second of an option that is given once.
      have hlength := h.once parameter hsingle
      rw [hvalues, List.length_append, List.length_cons] at hlength
      exact List.eq_nil_of_length_eq_zero (by omega)
  | internalTopics =>
      refine switchOn_said fun hmem => ?_
      have hbefore := List.count_pos_iff.mpr hmem
      have hcount := h.internalTopics
      rw [List.count_append, List.count_cons_self] at hcount
      omega

theorem foldlM_take_said {items rest : List Item} (h : Admissible (items ++ rest)) :
    rest.foldlM Item.take (said items) = .ok (said (items ++ rest)) := by
  induction rest generalizing items with
  | nil => rw [List.append_nil]; rfl
  | cons item rest ih =>
      have happend : items ++ item :: rest = items ++ [item] ++ rest := by simp
      rw [List.foldlM_cons, take_said h]
      rw [happend] at h ⊢
      exact ih h

/-- Complete arguments are read as what they come to together. -/
theorem parse_map_text {items : List Item} (h : Admissible items) :
    parse (items.map Item.text) = .ok (said items) := by
  have hstart : Progress.start = Progress.settled (said []) := rfl
  rw [parse, hstart, Item.readAll_map_text]
  exact foldlM_take_said h

end CommandLine

end BrokerProbe
