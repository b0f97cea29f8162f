import ModemSelect.Text

namespace ModemSelect

inductive Reason where
  | signalChanged
  | registrationChanged
  | displayInfoChanged
  | defaultNetworkChanged
  | subscriptionsChanged
  | dataSettingsChanged
  | carrierConfigChanged
  | retryValidation
  | external
  deriving DecidableEq

instance : Named Reason where
  all := [.signalChanged, .registrationChanged, .displayInfoChanged, .defaultNetworkChanged,
    .subscriptionsChanged, .dataSettingsChanged, .carrierConfigChanged, .retryValidation,
    .external]
  name
    | .signalChanged => "signal_changed"
    | .registrationChanged => "registration_changed"
    | .displayInfoChanged => "display_info_changed"
    | .defaultNetworkChanged => "default_network_changed"
    | .subscriptionsChanged => "subscriptions_changed"
    | .dataSettingsChanged => "data_settings_changed"
    | .carrierConfigChanged => "carrier_config_changed"
    | .retryValidation => "retry_validation"
    | .external => "external"

end ModemSelect
