import AiBridge.RelaxedCriteria

namespace AiBridge

open Text

variable {rx : RegexEngine} {split : String → Option (List String)} {config : CriteriaConfig}
  {command : String}

end AiBridge
