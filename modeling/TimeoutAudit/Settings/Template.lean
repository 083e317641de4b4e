/-!
# The settings file that is written at the start

The file shows every setting with its built-in value; only the directory of
installed packages is left out of the audit.
-/

set_option autoImplicit false

namespace TimeoutAudit.Settings

/-- The lines of the file. -/
def templateLines : List String :=
  ["# timeoutguard configuration",
    "#",
    "# Every key is optional. Removing a key restores the built-in default.",
    "version: \"1\"",
    "",
    "# Glob patterns, relative to the scanned directory, that are never analyzed.",
    "excluded_paths:",
    "  - \"vendor/**\"",
    "",
    "detectors:",
    "  guzzle:",
    "    enabled: true",
    "    # Receiver variables (without \x60$\x60) treated as Guzzle clients.",
    "    client_variables:",
    "      - client",
    "      - httpClient",
    "      - guzzle",
    "      - guzzleClient",
    "      - http",
    "      - api",
    "      - apiClient",
    "      - restClient",
    "    # \x60request('GET', ...)\x60 on these receivers is left to the Symfony detector.",
    "    foreign_client_variables:",
    "      - symfonyClient",
    "      - httpClient",
    "",
    "  symfony:",
    "    enabled: true",
    "    # Class name fragment of factories like \x60HttpClient::create()->request(...)\x60.",
    "    factory_marker: HttpClient",
    "",
    "  curl:",
    "    enabled: true",
    "    functions:",
    "      - curl_exec"]

/-- The characters of the file. -/
def templateText : List Char := templateLines.flatMap fun line => line.toList ++ ['\n']

/-- The text of the file. -/
def template : String := String.ofList templateText

end TimeoutAudit.Settings
