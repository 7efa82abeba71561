import EditorScaffold.Proofs.CommandLine.Settings
import EditorScaffold.Proofs.Tree.Walk

/-! # Command lines that make an editor

Options that exclude each other are never both read: a command line that is accepted leaves all fields out that it
skips or binds the ones that it names, and prints the editor or writes it (`exclusive_of_parse`). Every choice of
options that excludes no other is read from its command line, in whatever order its options stand there
(`Arranges`): each option takes its own values, and names keep their order (`Arranges.values`). -/

namespace EditorScaffold.CommandLine

variable {o : GenerateOptions} {x : Opt} {v schema : Text} {w : Verb} {ss : List (Opt × Text)} {s : Taken}

/-! ### The options of a command -/

namespace GenerateOptions

/-- The values that an option is given, flags an empty one. -/
def given (o : GenerateOptions) : Opt → List Text
  | .skip => o.skip
  | .only => o.only
  | .target => .replicate o.target.toNat []
  | .output => o.output.toList
  | .stdout => .replicate o.stdout.toNat []
  | .indentSpaces => o.indentSpaces.toList.map Text.ofNat
  | _ => []

/-- **The settings of a command**, option by option. -/
def settings (o : GenerateOptions) : List (Opt × Text) :=
  [.skip, .only, .target, .output, .stdout, .indentSpaces].flatMap fun x => (o.given x).map (x, ·)

/-- **Nothing is excluded**: fields are not both skipped and named, and an editor that is printed has no path. -/
structure Exclusive (o : GenerateOptions) : Prop where
  names : o.skip = [] ∨ o.only = []
  place : o.stdout = true → o.output = none

/-- What can be given as a value: the path is not empty, and the width lies below the bound. -/
structure Givable (o : GenerateOptions) : Prop where
  path : o.output ≠ some []
  width : ∀ n, o.indentSpaces = some n → n < 2 ^ 64

theorem filter_settings (o : GenerateOptions) (x : Opt) :
    o.settings.filter (·.1 = x) = (o.given x).map (x, ·) := by
  cases x <;> simp [settings, given, List.filter_map, Function.comp_def]

theorem mem_settings : (x, v) ∈ o.settings ↔ v ∈ o.given x := by
  have hmem : (x, v) ∈ o.settings.filter (·.1 = x) ↔ (x, v) ∈ o.settings := by simp
  rw [← hmem, filter_settings]
  simp

theorem length_given_le (o : GenerateOptions) (h : x.repeatable = false) : (o.given x).length ≤ 1 := by
  cases x with
  | skip | only => cases h
  | target | stdout => exact List.length_replicate.trans_le (Bool.toNat_le _)
  | output => cases houtput : o.output <;> simp [given, houtput]
  | indentSpaces => cases hspaces : o.indentSpaces <;> simp [given, hspaces]
  | _ => exact Nat.zero_le 1

theorem known_of_mem_given (h : v ∈ o.given x) :
    x ∈ (Level.verb .generate).options ∧ x ≠ .help ∧ x ≠ .version := by
  cases x with
  | schema | help | version => exact absurd h List.not_mem_nil
  | _ => decide

theorem eq_nil_of_mem_given (h : v ∈ o.given x) (hflag : x.takesValue = false) : v = [] := by
  cases x with
  | target | stdout => exact List.eq_of_mem_replicate h
  | help | version => exact absurd h List.not_mem_nil
  | _ => cases hflag

theorem Givable.valueFault?_eq_none (ho : o.Givable) (h : v ∈ o.given x) : Taken.valueFault? x v = none := by
  cases x with
  | output =>
    have hpath : v ≠ [] := fun hv => ho.path (hv ▸ Option.mem_toList.1 h)
    exact if_neg (by rwa [List.isEmpty_iff])
  | indentSpaces =>
    obtain ⟨n, hn, rfl⟩ := List.mem_map.1 h
    have hread := readNumber_ofNat (ho.width n (Option.mem_toList.1 hn))
    unfold Taken.valueFault?
    rw [hread]
  | schema => exact absurd h List.not_mem_nil
  | _ => rfl

/-- Every setting of a command can be set by an argument after its verb. -/
theorem Givable.settable (ho : o.Givable) {x : Opt × Text} (hx : x ∈ o.settings) : Settable (.verb .generate) x where
  mem := (known_of_mem_given (mem_settings.1 hx)).1
  ne_help := (known_of_mem_given (mem_settings.1 hx)).2.1
  ne_version := (known_of_mem_given (mem_settings.1 hx)).2.2
  fault := ho.valueFault?_eq_none (mem_settings.1 hx)
  flag := eq_nil_of_mem_given (mem_settings.1 hx)

end GenerateOptions

open GenerateOptions

/-! ### Settings in any order -/

/-- **Settings are arranged**: each setting of the command stands once, and names stand in their order. -/
structure Arranges (o : GenerateOptions) (ss : List (Opt × Text)) : Prop where
  perm : ss.Perm o.settings
  skip : (o.skip.map (Opt.skip, ·)).Sublist ss
  only : (o.only.map (Opt.only, ·)).Sublist ss

namespace Arranges

theorem sublist (h : Arranges o ss) (x : Opt) : ((o.given x).map (x, ·)).Sublist ss := by
  cases hx : x.repeatable with
  | true =>
    cases x with
    | skip => exact h.skip
    | only => exact h.only
    | _ => cases hx
  | false =>
    -- an option that is not repeated has no values or one
    have hlength := o.length_given_le hx
    have hmem : ∀ v ∈ o.given x, (x, v) ∈ ss := fun v hv => h.perm.mem_iff.2 (mem_settings.2 hv)
    cases hgiven : o.given x with
    | nil => exact List.nil_sublist ss
    | cons v vs =>
      rw [hgiven, List.length_cons] at hlength
      obtain rfl := List.eq_nil_of_length_eq_zero (Nat.le_zero.1 (Nat.le_of_succ_le_succ hlength))
      exact List.singleton_sublist.2 (hmem v (hgiven ▸ List.mem_cons_self))

/-- **An option stands with its values**, in their order. -/
theorem values (h : Arranges o s.settings) (x : Opt) : s.values x = o.given x := by
  have hsub : ((o.given x).map (x, ·)).Sublist (s.settings.filter (·.1 = x)) := by
    have hfilter := (h.sublist x).filter (·.1 = x)
    rwa [List.filter_eq_self.2 (by simp)] at hfilter
  have hlength : ((o.given x).map (x, ·)).length = (s.settings.filter (·.1 = x)).length := by
    rw [← filter_settings, (h.perm.filter _).length_eq]
  rw [Taken.values, ← hsub.eq_of_length hlength, List.map_map]
  exact List.map_id _

theorem pairwise_compatible (h : Arranges o ss) : ss.Pairwise Compatible := by
  refine List.pairwise_iff_forall_sublist.2 fun {y z} hyz heq => ?_
  by_contra hrepeat
  have hvalues : [y.2, z.2].Sublist (o.given y.1) := by
    rw [← values (s := { settings := ss }) h]
    have hfilter := (hyz.filter (·.1 = y.1)).map Prod.snd
    rwa [List.filter_eq_self.2 (by simp [heq])] at hfilter
  have hlength := hvalues.length_le.trans (o.length_given_le (Bool.eq_false_iff.2 hrepeat))
  exact absurd hlength (by simp)

end Arranges

/-! ### The command that is taken -/

namespace Taken

/-- The options of a command that has been taken, with its script. -/
def options (s : Taken) (script : Text) : GenerateOptions where
  script
  skip := s.values .skip
  only := s.values .only
  target := s.has .target
  output := s.value? .output
  stdout := s.has .stdout
  indentSpaces := (s.value? .indentSpaces).bind fun v => (readNumber v).toOption

theorem command_eq_generate_iff :
    s.command w = .ok (.generate o) ↔
      w = .generate ∧ s.rivals? = none ∧ ∃ script, s.script = some script ∧ s.options script = o := by
  cases w with
  | types => simp [command]
  | fields => cases hscript : s.script <;> simp [command, hscript]
  | generate =>
    cases hrivals : s.rivals? <;> cases hscript : s.script <;> simp [command, hrivals, hscript, options]

theorem exclusive_options (h : s.rivals? = none) (script : Text) : (s.options script).Exclusive := by
  obtain ⟨hnames, hplace⟩ := (rivals?_eq_none_iff s).1 h
  refine ⟨hnames, fun hstdout => ?_⟩
  have houtput := hplace.resolve_left (has_iff.1 hstdout)
  change (s.values .output).getLast? = none
  rw [houtput, List.getLast?_nil]

theorem rivals?_of_arranges (ho : o.Exclusive) (h : Arranges o s.settings) : s.rivals? = none := by
  rw [rivals?_eq_none_iff, h.values, h.values, h.values, h.values]
  refine ⟨ho.names, ?_⟩
  cases hstdout : o.stdout with
  | false => exact Or.inl (by rw [given, hstdout]; rfl)
  | true => exact Or.inr (by rw [given, ho.place hstdout]; rfl)

theorem has_of_arranges (h : Arranges o s.settings) {b : Bool} (hx : o.given x = .replicate b.toNat []) :
    s.has x = b := by
  rw [Bool.eq_iff_iff, has_iff, h.values, hx]
  cases b <;> simp

/-- **Arranged options are read** to the options that they are of. -/
theorem options_of_arranges (ho : o.Givable) (h : Arranges o s.settings) : s.options o.script = o := by
  have houtput : s.value? .output = o.output := by
    rw [value?, h.values]
    cases hpath : o.output <;> simp [given, hpath]
  have hspaces : ((s.value? .indentSpaces).bind fun v => (readNumber v).toOption) = o.indentSpaces := by
    rw [value?, h.values]
    cases hwidth : o.indentSpaces with
    | none => simp [given, hwidth]
    | some n => simp [given, hwidth, readNumber_ofNat (ho.width n hwidth), Except.toOption]
  rw [options, h.values, h.values, has_of_arranges h rfl, has_of_arranges h rfl, houtput, hspaces]
  rfl

/-- **Arranged arguments are taken**, and after two dashes the script, whatever it looks like. -/
theorem foldlM_take_arranged (ho : o.Givable) (h : Arranges o ss) :
    (ss.map spelled ++ [['-', '-'], o.script]).foldlM (take (.verb .generate)) {} =
      .ok { settings := ss, script := some o.script, trailing := true } := by
  have hset : ∀ x ∈ ss, Settable (.verb .generate) x := fun x hx => ho.settable (h.perm.mem_iff.1 hx)
  have htake : (ss.map spelled).foldlM (take (.verb .generate)) {} = .ok { settings := ss } :=
    foldlM_take_spelled hset h.pairwise_compatible
  rw [List.foldlM_append, htake]
  rfl

end Taken

/-! ### Whole command lines -/

/-- **A command line is accepted** if arguments of the program and a verb can be taken from it, and the arguments after
the verb make up a command. -/
theorem parse_eq_ok_iff {args : List Text} {i : Invocation} :
    parse args = .ok i ↔ ∃ top w rest s s' top', takeTop {} args = .ok (top, some (w, rest)) ∧
      rest.foldlM (Taken.take (.verb w)) {} = .ok s ∧ s.settle (.verb w) = .ok s' ∧ s'.command w = .ok i.command ∧
      top.settle .top = .ok top' ∧ i.schema = ((s'.value? .schema).or (top'.value? .schema)).getD defaultSchema := by
  constructor
  · intro h
    obtain ⟨⟨top, verb⟩, htop, h⟩ := bind_eq_ok_iff.1 h
    cases verb with
    | none =>
      obtain ⟨top', -, h⟩ := bind_eq_ok_iff.1 h
      split at h <;> cases h
    | some verb =>
      obtain ⟨w, rest⟩ := verb
      obtain ⟨s, hs, h⟩ := bind_eq_ok_iff.1 h
      obtain ⟨s', hs', h⟩ := bind_eq_ok_iff.1 h
      obtain ⟨command, hcommand, h⟩ := bind_eq_ok_iff.1 h
      obtain ⟨top', htop', h⟩ := bind_eq_ok_iff.1 h
      cases h
      refine ⟨top, w, rest, s, s', top', htop, hs, hs', ?_, htop', rfl⟩
      cases htaken : s'.command w <;> rw [htaken] at hcommand <;> cases hcommand
      rfl
  · rintro ⟨top, w, rest, s, s', top', htop, hs, hs', hcommand, htop', hschema⟩
    unfold parse
    simp only [bind, Except.bind, htop, hs, hs', hcommand, htop', ← hschema]
    rfl

theorem ofText?_cons_dash (t : Text) : Verb.ofText? ('-' :: t) = none := by
  rw [Verb.ofText?, List.find?_eq_none]
  intro w _ h
  have hname : w.name = '-' :: t := of_decide_eq_true h
  have hhead : w.name.head? ≠ some '-' := by cases w <;> decide
  exact hhead (hname ▸ rfl)

/-- Before the verb, a manifest is named. -/
theorem takeTop_schema (h : schema ≠ []) (w : Verb) (rest : List Text) :
    takeTop {} (spelled (.schema, schema) :: w.name :: rest) =
      .ok ({ settings := [(.schema, schema)] }, some (w, rest)) := by
  have hset : Settable .top (.schema, schema) :=
    ⟨List.mem_cons_self, Opt.noConfusion, Opt.noConfusion, if_neg (by rwa [List.isEmpty_iff]), Bool.noConfusion⟩
  have htake : Taken.take .top {} (spelled (.schema, schema)) = .ok { settings := [(.schema, schema)] } :=
    Taken.take_spelled hset (List.forall_mem_nil _)
  have hverb : Verb.ofText? (spelled (.schema, schema)) = none := ofText?_cons_dash _
  have hhelp : spelled (.schema, schema) ≠ helpWord := fun h => absurd (List.cons.inj h).1 (by decide)
  have hname : w.name ≠ helpWord := by cases w <;> decide
  have hfound : Verb.ofText? w.name = some w := by cases w <;> rfl
  unfold takeTop
  simp only [Taken.awaitsValue, hverb, if_neg hhelp, htake]
  unfold takeTop
  simp only [Taken.awaitsValue, hfound, if_neg hname]
  rfl

theorem exclusive_of_parse {args : List Text} {i : Invocation} (h : parse args = .ok i)
    (hcommand : i.command = .generate o) : o.Exclusive := by
  obtain ⟨-, w, -, -, s, -, -, -, -, htaken, -⟩ := parse_eq_ok_iff.1 h
  rw [hcommand] at htaken
  obtain ⟨-, hrivals, script, -, rfl⟩ := Taken.command_eq_generate_iff.1 htaken
  exact Taken.exclusive_options hrivals script

/-- **Options of a command are read as they are given, and exclude no other.** Of an accepted command line that makes an
editor, no two options exclude each other. And every choice of options that exclude no other is read from the arguments
that set them, in any order that keeps the order of names, with the manifest before the verb and the script at the
end. -/
theorem parse_generate_exclusive_and_arranged :
    (∀ args i o, parse args = .ok i → i.command = .generate o → o.Exclusive) ∧
    ∀ schema o ss, schema ≠ [] → o.Exclusive → o.Givable → Arranges o ss →
      parse (spelled (.schema, schema) :: "generate".toList :: (ss.map spelled ++ ["--".toList, o.script])) =
        .ok ⟨schema, .generate o⟩ := by
  refine ⟨fun args i o h hcommand => exclusive_of_parse h hcommand, fun schema o ss hschema hexclusive hgivable h => ?_⟩
  let s : Taken := { settings := ss, script := some o.script, trailing := true }
  have hsettings : Arranges o s.settings := h
  have hcommand : s.command .generate = .ok (.generate o) :=
    Taken.command_eq_generate_iff.2 ⟨rfl, Taken.rivals?_of_arranges hexclusive hsettings, o.script, rfl,
      Taken.options_of_arranges hgivable hsettings⟩
  have hunset : s.value? .schema = none := by
    rw [Taken.value?, hsettings.values]
    rfl
  exact parse_eq_ok_iff.2 ⟨_, .generate, _, s, s, _, takeTop_schema hschema .generate _,
    Taken.foldlM_take_arranged hgivable h, rfl, hcommand, rfl, by rw [hunset]; rfl⟩

/-- Names that look like options, one of them twice, a path that looks like one, and the greatest width. -/
def strangeNames : GenerateOptions where
  script := "--help".toList
  skip := ["a b".toList, "x=y".toList, "--only".toList, "a b".toList]
  target := true
  output := some "-o".toList
  indentSpaces := some 18446744073709551615

/-- These options with other ones between the names. -/
def strangeOrder : List (Opt × Text) :=
  [(.skip, "a b".toList), (.output, "-o".toList), (.skip, "x=y".toList),
    (.indentSpaces, "18446744073709551615".toList), (.skip, "--only".toList), (.target, []), (.skip, "a b".toList)]

/-- The arguments that set them. -/
def strangeArguments : List Text :=
  ["--schema=my types.json", "generate", "--skip=a b", "--output=-o", "--skip=x=y",
    "--indent-spaces=18446744073709551615", "--skip=--only", "--target", "--skip=a b", "--", "--help"].map String.toList

theorem strangeNames_parsed :
    strangeNames.Exclusive ∧ strangeNames.Givable ∧ Arranges strangeNames strangeOrder ∧
      parse strangeArguments = .ok ⟨"my types.json".toList, .generate strangeNames⟩ := by
  have hexclusive : strangeNames.Exclusive := ⟨Or.inr rfl, fun h => nomatch h⟩
  have hgivable : strangeNames.Givable := ⟨by decide, fun n h => by cases h; decide⟩
  have harranges : Arranges strangeNames strangeOrder := ⟨by decide, by decide, by decide⟩
  have harguments : strangeArguments = spelled (.schema, "my types.json".toList) :: "generate".toList ::
      (strangeOrder.map spelled ++ ["--".toList, strangeNames.script]) := rfl
  have hparse : parse strangeArguments = .ok ⟨"my types.json".toList, .generate strangeNames⟩ := by
    rw [harguments]
    exact parse_generate_exclusive_and_arranged.2 _ _ _ (by decide) hexclusive hgivable harranges
  exact ⟨parse_generate_exclusive_and_arranged.1 _ _ _ hparse rfl, hgivable, harranges, hparse⟩

end EditorScaffold.CommandLine
