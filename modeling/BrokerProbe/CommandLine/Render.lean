import BrokerProbe.CommandLine.Parse
/-!
# Writing the command line

Settings as a list of arguments, each value attached to its option, so that any
value can be written.
-/

namespace BrokerProbe

namespace CommandLine

def attach (parameter : Parameter) (value : String) : String :=
  parameter.flag ++ "=" ++ value

/-- The arguments that amount to some settings, whose switches a file at a path holds. -/
def render (settings : Settings) (path : String) : List String :=
  [attach .clusterName settings.cluster,
    attach .bootstrapServers settings.servers,
    attach .serviceAddress settings.address,
    attach .appProperties path,
    attach .roundInterval (toString settings.roundInterval),
    attach .metadataTimeout (toString settings.metadataTimeout),
    attach .readTimeout (toString settings.readTimeout)] ++
  settings.roster.addresses.map (attach .peer) ++
  settings.roles.map (fun role => attach .role role.label) ++
  (settings.maxRounds.map fun rounds => attach .maxRounds (toString rounds)).toList ++
  (if settings.includeInternal then [Toggle.internalTopics.flag] else [])

end CommandLine

end BrokerProbe
