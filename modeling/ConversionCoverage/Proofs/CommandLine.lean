import ConversionCoverage.Command.Arguments
import ConversionCoverage.Proofs.Numerals

/-!
# Asking for an export

Every export can be asked for: long options with their values, and the path of the record after two
hyphens, are read as the request that they were written for. Only a number of reasons with more
digits than are read in a number is refused.
-/

namespace ConversionCoverage

namespace Command

private theorem readCap?_ofNat {cap : Cap} (h : Binary64.digitCount cap.val ≤ Numeral.maxDigits) :
    readCap? (Text.ofNat cap.val) = some cap := by
  rw [readCap?, Numeral.read_ofNat, if_neg (Nat.not_lt.mpr h)]
  exact dif_pos cap.property

private theorem readCap?_of_tooLong {n : Nat} (h : Numeral.maxDigits < Binary64.digitCount n) :
    readCap? (Text.ofNat n) = none := by
  rw [readCap?, Numeral.read_ofNat, if_pos h]

/-! ## Options -/

/-- Arguments that are read as options with their values, whatever follows them. -/
def Options.Reads (options : Options) (arguments : List Text) (given : List (Switch × Text)) :
    Prop :=
  ∀ rest, options.readAll true (arguments ++ rest) =
    (options.readAll true rest).map fun parsed => ⟨given ++ parsed.given, parsed.others⟩

namespace Options

variable {options : Options}

theorem reads_nil : options.Reads [] [] := by
  intro rest
  simp

theorem Reads.append {arguments more : List Text} {given after : List (Switch × Text)}
    (h : options.Reads arguments given) (hmore : options.Reads more after) :
    options.Reads (arguments ++ more) (given ++ after) := by
  intro rest
  rw [List.append_assoc, h, hmore, Option.map_map]
  simp [Function.comp_def]

theorem reads_argument {argument : Text} {given : List (Switch × Text)}
    (hhyphens : argument ≠ "--") (hoption : isOption argument = true)
    (h : options.readArgument argument = some ⟨given, none⟩) :
    options.Reads [argument] given := by
  intro rest
  rw [List.singleton_append, readAll, if_neg hhyphens, if_pos hoption, h]
  cases options.readAll true rest <;> rfl

/-- The argument that gives a value to a long option. -/
def assign (name : String) (value : Text) : Text := name ++ (.char '=' :: value)

private theorem reads_assign {name : String} {s : Switch} (hlong : options.long? name = some s)
    (hs : s.takesValue = true) (hname : '=' ∉ name.toList)
    (hhyphen : (name : Text).head? = some (.char '-')) (value : Text) :
    options.Reads [assign name value] [(s, value)] := by
  have hequals : ∀ c ∈ (name : Text), c ≠ .char '=' := by
    intro c hc
    obtain ⟨d, hd, rfl⟩ := List.mem_map.mp hc
    rintro ⟨⟩
    exact hname hd
  have htake : (assign name value).takeWhile (· ≠ .char '=') = name := by
    rw [assign, List.takeWhile_append_of_pos (by simpa using hequals)]
    simp
  obtain ⟨rest, hrest⟩ := List.head?_eq_some_iff.mp hhyphen
  apply reads_argument
  · intro heq
    have hmem : CodePoint.char '=' ∈ ("--" : Text) := by
      rw [← heq, assign]
      simp
    exact absurd hmem (by decide)
  · have hlonger : 0 < rest.length + (value.length + 1) := by omega
    simp [isOption, assign, hrest, hlonger]
  · rw [readArgument]
    simp only [htake, hlong, hs, if_true]
    simp [assign]

theorem reads_optional {name : String} {s : Switch} (hlong : options.long? name = some s)
    (hs : s.takesValue = true) (hname : '=' ∉ name.toList)
    (hhyphen : (name : Text).head? = some (.char '-')) (value : Option Text) :
    options.Reads (value.toList.map (assign name)) (value.toList.map fun t => (s, t)) := by
  cases value with
  | none => exact reads_nil
  | some t => exact reads_assign hlong hs hname hhyphen t

end Options

end Command

/-! ## Requests -/

namespace ExportRequest

open Command

/-- The options of an export as arguments. -/
def options (request : ExportRequest) : List Text :=
  request.output.toList.map (Options.assign "--output") ++
    request.config.toList.map (Options.assign "--config") ++
    (request.topErrors.map fun cap => Text.ofNat cap.val).toList.map
      (Options.assign "--top-errors") ++
    if request.verbose then [("--verbose" : Text)] else []

/-- Arguments that ask for an export. -/
def arguments (request : ExportRequest) : List Text :=
  "export" :: (request.options ++ [("--" : Text), request.record])

/-- The options of an export with their values. -/
def given (request : ExportRequest) : List (Switch × Text) :=
  request.output.toList.map (fun t => (.output, t)) ++
    request.config.toList.map (fun t => (.config, t)) ++
    (request.topErrors.map fun cap => Text.ofNat cap.val).toList.map (fun t => (.topErrors, t)) ++
    if request.verbose then [(.verbose, [])] else []

private theorem reads_options (request : ExportRequest) :
    Options.forExport.Reads request.options request.given := by
  have hverbose : Options.forExport.Reads (if request.verbose then [("--verbose" : Text)] else [])
      (if request.verbose then [(.verbose, [])] else []) := by
    split
    · exact Options.reads_argument (by decide) rfl rfl
    · exact Options.reads_nil
  apply Options.Reads.append _ hverbose
  apply Options.Reads.append _ (Options.reads_optional rfl rfl (by decide) rfl _)
  apply Options.Reads.append _ (Options.reads_optional rfl rfl (by decide) rfl _)
  exact Options.reads_optional rfl rfl (by decide) rfl _

theorem parsed_given (request : ExportRequest) (others : List Text) :
    Parsed.has ⟨request.given, others⟩ .help = false ∧
      Parsed.has ⟨request.given, others⟩ .verbose = request.verbose ∧
      Parsed.value? ⟨request.given, others⟩ .output = request.output ∧
      Parsed.value? ⟨request.given, others⟩ .config = request.config ∧
      Parsed.value? ⟨request.given, others⟩ .topErrors =
        request.topErrors.map fun cap => Text.ofNat cap.val := by
  obtain ⟨_, output, config, topErrors, verbose⟩ := request
  cases output <;> cases config <;> cases topErrors <;> cases verbose <;>
    exact ⟨rfl, rfl, rfl, rfl, rfl⟩

end ExportRequest

namespace Command

private theorem readAll_arguments (request : ExportRequest) :
    Options.forExport.readAll true (request.options ++ [("--" : Text), request.record]) =
      some ⟨request.given, [request.record]⟩ := by
  rw [request.reads_options, Options.readAll, if_pos rfl]
  simp

/-- The arguments of an export are read as it, but for a number of reasons that is not read. -/
theorem ofArguments?_eq (request : ExportRequest) : ofArguments? request.arguments =
    (request.topErrors.elim (some none) fun cap =>
      (readCap? (Text.ofNat cap.val)).map some).map fun topErrors =>
        .exportRecord { request with topErrors := topErrors } := by
  have hgeneral : Options.general.readAll false request.arguments =
      some ⟨[], request.arguments⟩ := by
    rw [ExportRequest.arguments, Options.readAll, if_neg (by decide), if_neg (by decide),
      if_neg (by decide)]
  obtain ⟨hhelp, hverbose, houtput, hconfig, htopErrors⟩ := request.parsed_given [request.record]
  rw [ofArguments?, hgeneral]
  show ofExportArguments? (request.options ++ [("--" : Text), request.record]) = _
  rw [ofExportArguments?, readAll_arguments]
  simp only [Option.bind_eq_bind, Option.bind_some, hhelp, hverbose, houtput, hconfig, htopErrors]
  cases request.topErrors with
  | none => rfl
  | some cap =>
    rw [Option.map_some, Option.elim_some]
    simp only
    cases readCap? (Text.ofNat cap.val) <;> rfl

theorem ofArguments?_arguments {request : ExportRequest}
    (h : ∀ cap ∈ request.topErrors, Binary64.digitCount cap.val ≤ Numeral.maxDigits) :
    ofArguments? request.arguments = some (.exportRecord request) := by
  rw [ofArguments?_eq]
  obtain ⟨_, _, _, topErrors, _⟩ := request
  cases topErrors with
  | none => rfl
  | some cap =>
    rw [Option.elim_some, readCap?_ofNat (h cap rfl)]
    rfl

theorem ofArguments?_of_tooLong {request : ExportRequest} {cap : Cap}
    (hcap : request.topErrors = some cap)
    (h : Numeral.maxDigits < Binary64.digitCount cap.val) :
    ofArguments? request.arguments = none := by
  rw [ofArguments?_eq, hcap, Option.elim_some, readCap?_of_tooLong h]
  rfl

end Command

end ConversionCoverage
