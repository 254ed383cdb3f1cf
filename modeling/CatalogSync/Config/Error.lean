namespace CatalogSync

inductive ConfigError where
  | missingKey (key : String)
  | invalidValue (key value : String)
  | invalidOverride (pair : String)
  | database (reason : String)
  deriving DecidableEq, Repr

def ConfigError.message : ConfigError → String
  | missingKey key => "Missing configuration key: " ++ key
  | invalidValue key value =>
    "Received invalid configuration value of [" ++ value ++ "] for property [" ++ key ++ "]"
  | invalidOverride pair => "Invalid attribute override key value pair of [" ++ pair ++ "]"
  | database reason => "Database error: " ++ reason

end CatalogSync
